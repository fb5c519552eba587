import DocumentServer.Codec.Decode

namespace DocumentServer

/-- How reading stops early: by an error in the document, or by a fault of the cursor. -/
inductive Halt where
  | error (e : DecodeError)
  | outOfRange
  | underflow
  | endless
  deriving DecidableEq

inductive Event where
  /-- A place, the bounds there and those that are to be restored, the innermost first. -/
  | moved (pos : Nat) (range : Range) (around : List Range)
  /-- The places where an element starts and ends. -/
  | element (first last : Nat)
  deriving DecidableEq

structure Cursor (σ : Type) where
  range : Range
  around : List Range
  kept : σ
  /-- The latest event first. -/
  trail : List Event

namespace Cursor

open Read

abbrev Step (σ α : Type) : Type := Read Halt (Cursor σ) α

variable {σ τ α : Type}

def new (s : σ) : Cursor σ := ⟨⟨0, 0⟩, [], s, []⟩

def sub (m n : Nat) : Step σ Nat := if n ≤ m then pure (m - n) else fail .underflow

def index (b : ByteArray) (i : Nat) : Step σ UInt8 :=
  if h : i < b.size then pure b[i] else fail .outOfRange

def cut (b : ByteArray) (i j : Nat) : Step σ ByteArray :=
  if i ≤ j ∧ j ≤ b.size then pure (b.extract i j) else fail .outOfRange

def bounds : Step σ Range := fun i c => (.ok (c.range, i), c)

def jump (j : Nat) : Step σ Unit := fun _ c =>
  (.ok ((), j), { c with trail := .moved j c.range c.around :: c.trail })

def setBounds (r : Range) (around : List Range → List Range) : Step σ Unit := fun i c =>
  (.ok ((), i), { c with
    range := r
    around := around c.around
    trail := .moved i r (around c.around) :: c.trail })

def endElement (first : Nat) : Step σ Unit := fun i c =>
  (.ok ((), i), { c with trail := .element first i :: c.trail })

/-- A step on what is kept, which looks at no bytes. -/
def keeping (p : Read DecodeError σ α) : Step σ α := fun i c =>
  match p i c.kept with
  | (.ok a, s) => (.ok a, { c with kept := s })
  | (.error e, s) => (.error (.error e), { c with kept := s })

def overrun (upto : Nat) : Step σ α := do
  let r ← bounds
  let declared ← sub r.stop r.start
  let consumed ← sub upto r.start
  fail (.error (.lengthMismatch declared consumed))

def enter (i n : Nat) : Step σ Range := do
  let r ← bounds
  if i + n > r.stop then overrun (i + n)
  else do
    setBounds ⟨i, r.stop⟩ (r :: ·)
    setBounds ⟨i, i + n⟩ id
    return r

def leave (saved : Range) : Step σ Unit := do
  let r ← bounds
  setBounds ⟨saved.start, r.stop⟩ id
  setBounds saved List.tail

def close : Step σ Unit := do
  let i ← offset
  let r ← bounds
  if i ≠ r.stop then overrun i else pure ()

variable (b : ByteArray)

def take (n : Nat) : Step σ ByteArray := do
  let i ← offset
  let r ← bounds
  if i + n > r.stop then overrun (i + n)
  else do
    let w ← cut b i (i + n)
    jump (i + n)
    return w

def byte : Step σ UInt8 := do index (← take b 1) 0

def int32 : Step σ Int32 := return Bytes.int32 (← take b 4) 0

def int64 : Step σ Int64 := return Bytes.int64 (← take b 8) 0

def uint64 : Step σ UInt64 := return Bytes.uint64 (← take b 8) 0

def objectId : Step σ ObjectId := return .ofRegion (← take b 12) 0

def lengthWord (least : Nat) : Step σ (Nat × Nat) := do
  let i ← offset
  let n ← int32 b
  if n.toInt < least then fail (.error (.invalidLength i n.toInt)) else return (i, n.toInt.toNat)

def before (i : Nat) : Option Nat → Step σ (Nat × ByteArray)
  | none => fail (.error (.unterminated i))
  | some n => do
    let bytes ← cut b i (i + n)
    jump (i + n + 1)
    return (i, bytes)

def cstring : Step σ (Nat × ByteArray) := do
  let i ← offset
  let r ← bounds
  let rest ← cut b i r.stop
  before b i (Bytes.findZero? rest 0 rest.size)

def terminated (n : Nat) : Step σ (Nat × ByteArray) := do
  let first ← offset
  let bytes ← take b n
  let m ← sub bytes.size 1
  let terminator ← cut bytes m bytes.size
  let content ← cut bytes 0 m
  let x ← index terminator 0
  if x = 0 then return (first, content)
  else do
    let last ← sub (← offset) 1
    fail (.error (.invalidPayload last .stringNotTerminated))

def string : Step σ (Nat × ByteArray) := do
  let (_, n) ← lengthWord b 1
  terminated b n

def nextTag? : Step σ (Option Tag) := do
  let i ← offset
  let x ← byte b
  if x = 0 then do
    close
    return none
  else match Tag.ofByte? x with
    | some t => return some t
    | none => fail (.error (.invalidTag i x))

variable [HasContent τ] (k : Keeper σ τ)

def key : Step σ τ := do
  let found ← cstring b
  keeping (Decode.keep k true (found.2.size ≤ Decode.likelyKeySize) found)

def text : Step σ τ := do keeping (Decode.keep k false false (← string b))

/-- Inserts an entry, the place of a known key being an index. -/
def insert (d : Document.Builder τ) (name : τ) (v : Value τ) : Step σ (Document.Builder τ) := do
  keeping (Decode.drop k (d.displaced name))
  match d.position? (HasContent.content name) with
  | some i => if i < d.entries.size then return d.insert name v else fail .outOfRange
  | none => return d.insert name v

/-- How often a loop over the elements inside the bounds may go round: two bytes for every element,
and one for the terminator. -/
def rounds : Step σ Nat := return ((← bounds).stop - (← offset)) / 2 + 1

def entries (payload : Tag → Step σ (Value τ)) :
    Nat → Document.Builder τ → Step σ (Document τ)
  | 0, _ => fail .endless
  | n + 1, d => do
    let first ← offset
    match ← nextTag? b with
    | none => return d.build
    | some t => do
      let name ← key b k
      let v ← payload t
      let d ← insert k d name v
      endElement first
      entries payload n d

def items (payload : Tag → Step σ (Value τ)) :
    Nat → Array (Value τ) → Step σ (List (Value τ))
  | 0, _ => fail .endless
  | n + 1, vs => do
    let first ← offset
    match ← nextTag? b with
    | none => return vs.toList
    | some t => do
      let _ ← cstring b
      let v ← payload t
      endElement first
      items payload n (vs.push v)

structure Level (σ τ : Type) where
  document : Step σ (Document τ)
  array : Step σ (List (Value τ))

def inside (least : Nat) (body : Step σ α) : Step σ α := do
  let (i, n) ← lengthWord b least
  let saved ← enter i n
  let a ← body
  leave saved
  return a

def boolean : Step σ Bool := do
  let i ← offset
  let x ← byte b
  if x = 0 then return false
  else if x = 1 then return true
  else fail (.error (.invalidPayload i (.notBoolean x)))

def binary : Step σ (Scalar τ) := do
  let (_, n) ← lengthWord b 0
  let subtype ← byte b
  return .binary subtype (← take b n)

def regex : Step σ (Scalar τ) := do
  let pattern ← keeping (Decode.keep k false false (← cstring b))
  let options ← keeping (Decode.keep k false true (← cstring b))
  return .regex pattern options

def dbPointer : Step σ (Scalar τ) := do
  let space ← text b k
  return .dbPointer space (← objectId b)

def codeWithScope (document : Step σ (Document τ)) : Step σ (Value τ) :=
  inside b minCodeWithScopeSize do
    let code ← text b k
    let scope ← document
    close
    return .codeWithScope code scope

def payload (below : Level σ τ) : Tag → Step σ (Value τ)
  | .double => return .scalar (.double ⟨← uint64 b⟩)
  | .string => return .scalar (.string (← text b k))
  | .document => return .document (← below.document)
  | .array => return .array (← below.array)
  | .binary => return .scalar (← binary b)
  | .undefined => return .scalar .undefined
  | .objectId => return .scalar (.objectId (← objectId b))
  | .boolean => return .scalar (.boolean (← boolean b))
  | .datetime => return .scalar (.datetime (← int64 b))
  | .null => return .scalar .null
  | .regex => return .scalar (← regex b k)
  | .dbPointer => return .scalar (← dbPointer b k)
  | .javascript => return .scalar (.javascript (← text b k))
  | .symbol => return .scalar (.symbol (← text b k))
  | .codeWithScope => codeWithScope b k below.document
  | .int32 => return .scalar (.int32 (← int32 b))
  | .timestamp => return .scalar (.timestamp ⟨← uint64 b⟩)
  | .int64 => return .scalar (.int64 (← int64 b))
  | .minKey => return .scalar .minKey
  | .maxKey => return .scalar .maxKey

def documentBody (below : Level σ τ) : Step σ (Document τ) := do
  entries b k (payload b k below) (← rounds) .empty

def arrayBody (below : Level σ τ) : Step σ (List (Value τ)) := do
  items b (payload b k below) (← rounds) #[]

def level : Nat → Level σ τ
  | 0 => ⟨fail (.error (.nestingTooDeep maxNesting)), fail (.error (.nestingTooDeep maxNesting))⟩
  | n + 1 =>
    ⟨inside b minDocumentSize (documentBody b k (level n)),
      inside b minDocumentSize (arrayBody b k (level n))⟩

def start (n : Nat) : Step σ Unit := fun _ c =>
  (.ok ((), 4), { c with
    range := ⟨0, n⟩
    around := []
    trail := .moved 4 ⟨0, n⟩ [] :: c.trail })

/-- Reads the document at the start of a region; gives the document and its length. -/
def decode : Step σ (Document τ × Nat) := do
  if b.size < 4 then fail (.error (.truncatedInput 4 b.size))
  else do
    let declared := (Bytes.int32 (← cut b 0 4) 0).toInt
    if declared < minDocumentSize then fail (.error (.invalidLength 0 declared))
    else if declared.toNat > b.size then
      fail (.error (.truncatedInput declared.toNat b.size))
    else do
      start declared.toNat
      let d ← documentBody b k (level b k maxNesting)
      return (d, declared.toNat)

end Cursor

end DocumentServer
