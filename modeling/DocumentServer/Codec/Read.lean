import DocumentServer.Bytes
import DocumentServer.Codec.Error
import DocumentServer.Read
import DocumentServer.Value.Basic

namespace DocumentServer

/-- A part of a region: the bytes from `start` up to but without `stop`. -/
structure Range where
  start : Nat
  stop : Nat
  deriving DecidableEq

structure Found where
  offset : Nat
  content : String
  isKey : Bool
  /-- Whether the text is short and of a kind that tends to recur. -/
  likely : Bool

/-- What is done with texts: `keep` stores one, and `drop` lets go of texts that were kept. -/
structure Keeper (σ τ : Type) where
  keep : Found → σ → τ × σ
  drop : List τ → σ → σ

def Keeper.plain : Keeper Unit String := ⟨fun f s => (f.content, s), fun _ s => s⟩

namespace Decode

open Read

variable {σ τ α : Type}

def overrun (r : Range) (upto : Nat) : DecodeError :=
  .lengthMismatch (r.stop - r.start) (upto - r.start)

def advance (r : Range) (n : Nat) : Read DecodeError σ Nat := fun i s =>
  if i + n > r.stop then (.error (overrun r (i + n)), s) else (.ok (i, i + n), s)

def enter (r : Range) (i n : Nat) : Read DecodeError σ Range :=
  if i + n > r.stop then fail (overrun r (i + n)) else pure ⟨i, i + n⟩

def close (r : Range) : Read DecodeError σ Unit := do
  let i ← offset
  if i ≠ r.stop then fail (overrun r i) else pure ()

variable (b : ByteArray)

def byte (r : Range) : Read DecodeError σ UInt8 := return Bytes.at0 b (← advance r 1)

def int32 (r : Range) : Read DecodeError σ Int32 := return Bytes.int32 b (← advance r 4)

def int64 (r : Range) : Read DecodeError σ Int64 := return Bytes.int64 b (← advance r 8)

def uint64 (r : Range) : Read DecodeError σ UInt64 := return Bytes.uint64 b (← advance r 8)

def slice (r : Range) (n : Nat) : Read DecodeError σ ByteArray := do
  let i ← advance r n
  return b.extract i (i + n)

def objectId (r : Range) : Read DecodeError σ ObjectId := return .ofRegion b (← advance r 12)

/-- A length word that is not below a least length, with the offset of the word. -/
def lengthWord (r : Range) (least : Nat) : Read DecodeError σ (Nat × Nat) := do
  let i ← offset
  let n ← int32 b r
  if n.toInt < least then fail (.invalidLength i n.toInt) else return (i, n.toInt.toNat)

def cstring (r : Range) : Read DecodeError σ (Nat × ByteArray) := fun i s =>
  match Bytes.findZero? b i (r.stop - i) with
  | some j => (.ok ((i, b.extract i j), j + 1), s)
  | none => (.error (.unterminated i), s)

def string (r : Range) : Read DecodeError σ (Nat × ByteArray) := do
  let (_, n) ← lengthWord b r 1
  let bytes ← slice b r n
  let j ← offset
  if Bytes.at0 b (j - 1) = 0 then return (j - n, bytes.extract 0 (n - 1))
  else fail (.invalidPayload (j - 1) .stringNotTerminated)

variable (k : Keeper σ τ)

/-- Hands a text to the keeper, if the bytes encode one. -/
def keep (isKey likely : Bool) (found : Nat × ByteArray) : Read DecodeError σ τ := fun i s =>
  match String.fromUTF8? found.2 with
  | some content =>
    let (t, s) := k.keep ⟨found.1, content, isKey, likely⟩ s
    (.ok (t, i), s)
  | none => (.error (.invalidUtf8 found.1), s)

def drop (ts : List τ) : Read DecodeError σ Unit := fun i s => (.ok ((), i), k.drop ts s)

end Decode

end DocumentServer
