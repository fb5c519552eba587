import DocumentServer.Codec.Encode
import DocumentServer.Codec.Pool
import DocumentServer.Message.Namespace
import DocumentServer.Read

namespace DocumentServer

abbrev BodyRead (α : Type) : Type := Read MessageError Pool α

namespace Body

open Read

structure Source where
  opcode : Opcode
  bytes : ByteArray
  strategy : Strategy

namespace Source

variable (b : Source) {α : Type}

def malformed (fault : BodyFault) : BodyRead α := fail (.malformedBody b.opcode fault)

def advance (n : Nat) : BodyRead Nat := fun i p =>
  if i + n > b.bytes.size then malformed b (.truncated i) i p else (.ok (i, i + n), p)

def int32 : BodyRead Int32 := return Bytes.int32 b.bytes (← b.advance 4)

def uint32 : BodyRead UInt32 := return Bytes.uint32 b.bytes (← b.advance 4)

def int64 : BodyRead Int64 := return Bytes.int64 b.bytes (← b.advance 8)

def atEnd : BodyRead Bool := return b.bytes.size ≤ (← offset)

def space : BodyRead Namespace := fun i p =>
  match Bytes.findZero? b.bytes i (b.bytes.size - i) with
  | none => malformed b .unterminatedNamespace i p
  | some j =>
    match String.fromUTF8? (b.bytes.extract i j) with
    | none => malformed b .namespaceNotUtf8 i p
    | some s =>
      match Namespace.parse s with
      | .ok n => (.ok (n, j + 1), p)
      | .error e => (.error e, p)

def document : BodyRead (Document String) := fun i p =>
  match p.decode b.strategy 0 b.bytes i with
  | (.ok (d, n), p) => (.ok (Document.plain d, i + n), p)
  | (.error e, p) => (.error (.document e), p)

/-- The documents up to the end of the body. A document takes more than one byte, so a body of `n`
bytes has fewer than `n` of them. -/
def documents : Nat → Array (Document String) → BodyRead (List (Document String))
  | 0, ds => return ds.toList
  | n + 1, ds => do
    if ← b.atEnd then return ds.toList
    else documents n (ds.push (← b.document))

def count (fault : Int → BodyFault) : BodyRead Nat := do
  let n ← b.int32
  if n.toInt < 0 then b.malformed (fault n.toInt) else return n.toInt.toNat

def finish : BodyRead Unit := do
  let i ← offset
  if i ≠ b.bytes.size then b.malformed (.trailing (b.bytes.size - i)) else pure ()

end Source

/-- Runs a step from the start of the body. After an error nothing is held that was not held
before. -/
def run {α : Type} (step : BodyRead α) (p : Pool) : Except MessageError α × Pool :=
  match step 0 p with
  | (.ok (a, _), q) => (.ok a, q)
  | (.error e, q) => (.error e, p.restore q)

/-- A text and the zero byte after it; a zero in the text is not looked for. -/
def cstring (s : String) : ByteArray := s.toUTF8.push 0

def encodeAll (out : ByteArray) : List (Document String) → Except (Stop MessageError) ByteArray
  | [] => .ok out
  | d :: ds =>
    match Document.encodeOnto out d with
    | (.ok _, b) => encodeAll b ds
    | (.error s, _) => .error (s.map .encode)

end Body

end DocumentServer
