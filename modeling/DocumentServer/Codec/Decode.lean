import DocumentServer.Codec.Read
import DocumentServer.Document.Builder

namespace DocumentServer.Decode

open Read

def likelyKeySize : Nat := 32

variable {σ τ α : Type} [HasContent τ] (k : Keeper σ τ) (b : ByteArray)

def key (r : Range) : Read DecodeError σ τ := do
  let found ← cstring b r
  keep k true (found.2.size ≤ likelyKeySize) found

def text (r : Range) : Read DecodeError σ τ := do keep k false false (← string b r)

/-- The next tag, or `none` at the terminator, which has to be the last byte of the range. -/
def nextTag? (r : Range) : Read DecodeError σ (Option Tag) := do
  let i ← offset
  let x ← byte b r
  if x = 0 then do
    close r
    return none
  else match Tag.ofByte? x with
    | some t => return some t
    | none => fail (.invalidTag i x)

/-- The elements of a document up to its terminator. A range of `n` bytes has fewer than `n`
elements, so the step after `n` elements would be past the end. -/
def entries (payload : Range → Tag → Read DecodeError σ (Value τ)) (r : Range) :
    Nat → Document.Builder τ → Read DecodeError σ (Document τ)
  | 0, _ => do fail (overrun r ((← offset) + 1))
  | n + 1, d => do
    match ← nextTag? b r with
    | none => return d.build
    | some t => do
      let name ← key k b r
      let v ← payload r t
      drop k (d.displaced name)
      entries payload r n (d.insert name v)

/-- The elements of an array up to its terminator; their keys are passed over unread. -/
def items (payload : Range → Tag → Read DecodeError σ (Value τ)) (r : Range) :
    Nat → Array (Value τ) → Read DecodeError σ (List (Value τ))
  | 0, _ => do fail (overrun r ((← offset) + 1))
  | n + 1, vs => do
    match ← nextTag? b r with
    | none => return vs.toList
    | some t => do
      let _ ← cstring b r
      let v ← payload r t
      items payload r n (vs.push v)

/-- Readers of the two kinds of container, length word included, with some levels left. -/
structure Level (σ τ : Type) where
  document : Range → Read DecodeError σ (Document τ)
  array : Range → Read DecodeError σ (List (Value τ))

def nested (r : Range) (body : Range → Nat → Read DecodeError σ α) : Read DecodeError σ α := do
  let (i, n) ← lengthWord b r minDocumentSize
  let inner ← enter r i n
  body inner (inner.stop - (← offset))

def boolean (r : Range) : Read DecodeError σ Bool := do
  let i ← offset
  let x ← byte b r
  if x = 0 then return false
  else if x = 1 then return true
  else fail (.invalidPayload i (.notBoolean x))

def binary (r : Range) : Read DecodeError σ (Scalar τ) := do
  let (_, n) ← lengthWord b r 0
  let subtype ← byte b r
  return .binary subtype (← slice b r n)

def regex (r : Range) : Read DecodeError σ (Scalar τ) := do
  let pattern ← keep k false false (← cstring b r)
  let options ← keep k false true (← cstring b r)
  return .regex pattern options

def dbPointer (r : Range) : Read DecodeError σ (Scalar τ) := do
  let space ← text k b r
  return .dbPointer space (← objectId b r)

def codeWithScope (document : Range → Read DecodeError σ (Document τ)) (r : Range) :
    Read DecodeError σ (Value τ) := do
  let (i, n) ← lengthWord b r minCodeWithScopeSize
  let inner ← enter r i n
  let code ← text k b inner
  let scope ← document inner
  close inner
  return .codeWithScope code scope

def payload (below : Level σ τ) (r : Range) : Tag → Read DecodeError σ (Value τ)
  | .double => return .scalar (.double ⟨← uint64 b r⟩)
  | .string => return .scalar (.string (← text k b r))
  | .document => return .document (← below.document r)
  | .array => return .array (← below.array r)
  | .binary => return .scalar (← binary b r)
  | .undefined => return .scalar .undefined
  | .objectId => return .scalar (.objectId (← objectId b r))
  | .boolean => return .scalar (.boolean (← boolean b r))
  | .datetime => return .scalar (.datetime (← int64 b r))
  | .null => return .scalar .null
  | .regex => return .scalar (← regex k b r)
  | .dbPointer => return .scalar (← dbPointer k b r)
  | .javascript => return .scalar (.javascript (← text k b r))
  | .symbol => return .scalar (.symbol (← text k b r))
  | .codeWithScope => codeWithScope k b below.document r
  | .int32 => return .scalar (.int32 (← int32 b r))
  | .timestamp => return .scalar (.timestamp ⟨← uint64 b r⟩)
  | .int64 => return .scalar (.int64 (← int64 b r))
  | .minKey => return .scalar .minKey
  | .maxKey => return .scalar .maxKey

def level : Nat → Level σ τ
  | 0 => ⟨fun _ => fail (.nestingTooDeep maxNesting), fun _ => fail (.nestingTooDeep maxNesting)⟩
  | n + 1 =>
    let inner := payload k b (level n)
    ⟨fun r => nested b r fun q size => entries k b inner q size .empty,
      fun r => nested b r fun q size => items b inner q size #[]⟩

/-- Reads the document at offset `i` of a byte string. The declared length cuts out its region: no
byte outside is looked at, and offsets in errors count from the start of the document. Gives the
document and its length. -/
def documentAt (b : ByteArray) (i : Nat) (s : σ) : Except DecodeError (Document τ × Nat) × σ :=
  let available := b.size - i
  if available < 4 then (.error (.truncatedInput 4 available), s)
  else
    let declared := (Bytes.int32 b i).toInt
    if declared < minDocumentSize then (.error (.invalidLength 0 declared), s)
    else
      let size := declared.toNat
      if size > available then (.error (.truncatedInput size available), s)
      else
        let region := b.extract i (i + size)
        entries k region (payload k region (level k region maxNesting)) ⟨0, size⟩ (size - 4)
          .empty 4 s

end DocumentServer.Decode
