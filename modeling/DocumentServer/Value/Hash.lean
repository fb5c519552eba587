import DocumentServer.Value.Order
import Std.Data.HashSet

namespace DocumentServer

inductive HashPart where
  | word (value : UInt64)
  | text (value : String)
  | bytes (value : ByteArray)
  deriving DecidableEq

namespace HashPart

protected def hash : HashPart → UInt64
  | word w => Hashable.hash w
  | text s => Hashable.hash s
  | bytes b => Hashable.hash b

end HashPart

namespace Scalar

def feed (s : Scalar String) : List HashPart :=
  .word s.tag.byte.toUInt64 :: match s with
    | double d => [.word d.bits]
    | string t | symbol t | javascript t => [.text t]
    | regex p o => [.text p, .text o]
    | binary u b => [.word u.toUInt64, .bytes b]
    | objectId o => [.bytes o.bytes]
    | boolean b => [.word (if b then 1 else 0)]
    | datetime m => [.word m.toUInt64]
    | timestamp t => [.word t.raw]
    | dbPointer n o => [.text n, .bytes o.bytes]
    | int32 n => [.word n.toUInt32.toUInt64]
    | int64 n => [.word n.toUInt64]
    | undefined | null | minKey | maxKey => []

end Scalar

mutual

/-- The parts of a value in the order in which a hasher is fed. -/
def Value.feed : Value String → List HashPart
  | .scalar s => s.feed
  | .document es =>
    .word Tag.document.byte.toUInt64 :: .word (UInt64.ofNat es.length) :: Document.feed es
  | .array vs =>
    .word Tag.array.byte.toUInt64 :: .word (UInt64.ofNat vs.length) :: Value.feedAll vs
  | .codeWithScope c es =>
    .word Tag.codeWithScope.byte.toUInt64 :: .text c :: .word (UInt64.ofNat es.length)
      :: Document.feed es

def Document.feed : List (String × Value String) → List HashPart
  | [] => []
  | (k, v) :: es => .text k :: (v.feed ++ Document.feed es)

def Value.feedAll : List (Value String) → List HashPart
  | [] => []
  | v :: vs => v.feed ++ Value.feedAll vs

end

namespace Value

instance : Hashable (Value String) :=
  ⟨fun v => v.feed.foldl (fun h p => mixHash h p.hash) 7⟩

def distinct (vs : List (Value String)) : Nat :=
  (vs.foldl (fun s v => s.insert v) (∅ : Std.HashSet (Value String))).size

end Value

end DocumentServer
