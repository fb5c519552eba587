import DocumentServer.Value.Basic

namespace DocumentServer

/-- The place of a number: every NaN, by its bits, comes before all other numbers; these come by
size, and of the two zeros of a double the negative one is first. -/
structure NumberKey where
  isNumber : Bool
  size : Int
  isPositive : Bool
  deriving DecidableEq

namespace NumberKey

def ofInt (i : Int) : NumberKey := ⟨true, i * (Double.unitsPerOne : Int), true⟩

def ofDouble (d : Double) : NumberKey :=
  if d.isNaN then ⟨false, d.bits.toNat, true⟩
  else ⟨true, d.units, !(d.isZero && d.negative)⟩

def cmp (a b : NumberKey) : Ordering :=
  (compare a.isNumber b.isNumber).then
    ((compare a.size b.size).then (compare a.isPositive b.isPositive))

end NumberKey

inductive SortKey where
  | single
  | number (key : NumberKey)
  | integer (value : Int)
  | texts (first second : String)
  | bytes (bytes : ByteArray) (subtype : UInt8)
  | pointer (space : String) (id : ByteArray)
  deriving DecidableEq

namespace SortKey

/-- Payloads of one class have keys of one shape; two shapes are never compared. -/
def cmp : SortKey → SortKey → Ordering
  | number a, number b => a.cmp b
  | integer a, integer b => compare a b
  | texts a b, texts c d => (compare a c).then (compare b d)
  | bytes a s, bytes b t => (Bytes.compareBytes a b).then (compare s t)
  | pointer a i, pointer b j => (compare a b).then (Bytes.compareBytes i j)
  | _, _ => .eq

end SortKey

namespace Scalar

def sortKey : Scalar String → SortKey
  | double d => .number (.ofDouble d)
  | int32 n => .number (.ofInt n.toInt)
  | int64 n => .number (.ofInt n.toInt)
  | string t | symbol t | javascript t => .texts t ""
  | regex p o => .texts p o
  | binary s b => .bytes b s
  | objectId o => .bytes o.bytes 0
  | boolean b => .integer (if b then 1 else 0)
  | datetime m => .integer m.toInt
  | timestamp t => .integer t.raw.toNat
  | dbPointer s o => .pointer s o.bytes
  | undefined | null | minKey | maxKey => .single

end Scalar

mutual

def Value.cmp : Value String → Value String → Ordering
  | .scalar a, .scalar b =>
    (compare a.tag.rank b.tag.rank).then
      ((a.sortKey.cmp b.sortKey).then (compare a.tag.byte b.tag.byte))
  | .document a, .document b => Document.cmp a b
  | .array a, .array b => Value.cmpAll a b
  | .codeWithScope c a, .codeWithScope d b => (compare c d).then (Document.cmp a b)
  | a, b => compare a.tag.rank b.tag.rank

def Document.cmp :
    List (String × Value String) → List (String × Value String) → Ordering
  | [], [] => .eq
  | [], _ :: _ => .lt
  | _ :: _, [] => .gt
  | (k, v) :: es, (l, w) :: fs =>
    (compare k l).then ((v.cmp w).then (Document.cmp es fs))

def Value.cmpAll : List (Value String) → List (Value String) → Ordering
  | [], [] => .eq
  | [], _ :: _ => .lt
  | _ :: _, [] => .gt
  | v :: vs, w :: ws => (v.cmp w).then (Value.cmpAll vs ws)

end

namespace Value

instance : Ord (Value String) := ⟨Value.cmp⟩

instance : BEq (Value String) := ⟨fun a b => a.cmp b = .eq⟩

def sortedPositions (vs : List (Value String)) : List Nat :=
  (vs.zipIdx.mergeSort fun a b => (a.1.cmp b.1).isLE).map Prod.snd

end Value

namespace Document

instance : BEq (Document String) := ⟨fun a b => Document.cmp a b = .eq⟩

end Document

end DocumentServer
