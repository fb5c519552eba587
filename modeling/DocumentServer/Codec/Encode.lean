import DocumentServer.Bytes
import DocumentServer.Codec.Error
import DocumentServer.Value.Basic

namespace DocumentServer

/-- Steps that write after the bytes of a buffer. A step that stops leaves what it has written. -/
def Appending (α : Type) : Type := ByteArray → Except (Stop EncodeError) α × ByteArray

namespace Appending

variable {α β : Type}

instance : Monad Appending where
  pure a := fun b => (.ok a, b)
  bind p f := fun b =>
    match p b with
    | (.ok a, c) => f a c
    | (.error s, c) => (.error s, c)

theorem bind_apply (p : Appending α) (f : α → Appending β) (b : ByteArray) :
    (p >>= f) b =
      match p b with
      | (.ok a, c) => f a c
      | (.error s, c) => (.error s, c) := rfl

def stop (s : Stop EncodeError) : Appending α := fun b => (.error s, b)

def byte (x : UInt8) : Appending Unit := fun b => (.ok (), b.push x)

def bytes (c : ByteArray) : Appending Unit := fun b => (.ok (), b ++ c)

def reserve : Appending Nat := fun b => (.ok b.size, b ++ Bytes.ofSize 0)

def patch (start : Nat) : Appending Nat := fun b =>
  (.ok (b.size - start), (Bytes.ofSize (b.size - start)).copySlice 0 b start 4)

def cstring (part : CStringPart) (s : String) : Appending Unit :=
  if Bytes.hasZero s.toUTF8 then stop (.error (.interiorNul part s))
  else do
    bytes s.toUTF8
    byte 0

/-- A text behind the number of its bytes, the zero after it counted. The number is cut down to a
signed word first, and one is added to that. -/
def string (s : String) : Appending Unit :=
  if s.utf8ByteSize % 0x100000000 = 0x7fffffff then stop .overflow
  else do
    bytes (Bytes.ofSize (s.utf8ByteSize + 1))
    bytes s.toUTF8
    byte 0

/-- Steps behind a length word that counts itself, and is filled in after them. Gives the length. -/
def measured (steps : Appending Unit) : Appending Nat := do
  let start ← reserve
  steps
  patch start

def framed (elements : Appending Unit) : Appending Nat :=
  measured do
    elements
    byte 0

def withScope (code : String) (elements : Appending Unit) : Appending Unit :=
  discard <| measured do
    string code
    discard (framed elements)

end Appending

open Appending

def Scalar.append : Scalar String → Appending Unit
  | double d => bytes (Bytes.ofUInt64 d.bits)
  | string t | javascript t | symbol t => Appending.string t
  | binary s b => do
    bytes (Bytes.ofSize b.size)
    byte s
    bytes b
  | objectId o => bytes o.bytes
  | boolean b => byte (if b then 1 else 0)
  | datetime m => bytes (Bytes.ofInt64 m)
  | regex p o => do
    cstring .regexPattern p
    cstring .regexOptions o
  | dbPointer s o => do
    Appending.string s
    bytes o.bytes
  | int32 n => bytes (Bytes.ofInt32 n)
  | timestamp t => bytes (Bytes.ofUInt64 t.raw)
  | int64 n => bytes (Bytes.ofInt64 n)
  | undefined | null | minKey | maxKey => pure ()

mutual

def Value.append : Value String → Appending Unit
  | .scalar s => s.append
  | .document es => discard (framed (Document.appendEntries es))
  | .array vs => discard (framed (Value.appendItems 0 vs))
  | .codeWithScope c es => withScope c (Document.appendEntries es)

def Document.appendEntries : List (String × Value String) → Appending Unit
  | [] => pure ()
  | (k, v) :: es => do
    byte v.tag.byte
    cstring .key k
    v.append
    Document.appendEntries es

def Value.appendItems (i : Nat) : List (Value String) → Appending Unit
  | [] => pure ()
  | v :: vs => do
    byte v.tag.byte
    bytes (toString i).toUTF8
    byte 0
    v.append
    Value.appendItems (i + 1) vs

end

namespace Document

/-- Writes a document after the bytes of a buffer, and gives the number of bytes written. What an
attempt that fails leaves behind is taken off again, but not if the program breaks off. -/
def encodeOnto (buffer : ByteArray) (d : Document String) :
    Except (Stop EncodeError) Nat × ByteArray :=
  match framed (appendEntries d) buffer with
  | (.ok size, b) =>
    if size > maxDocumentSize then
      (.error (.error (.documentTooLarge size)), b.extract 0 buffer.size)
    else (.ok size, b)
  | (.error (.error e), b) => (.error (.error e), b.extract 0 buffer.size)
  | (.error .overflow, b) => (.error .overflow, b)

def encode (d : Document String) : Except (Stop EncodeError) ByteArray :=
  match encodeOnto ByteArray.empty d with
  | (.ok _, b) => .ok b
  | (.error s, _) => .error s

end Document

end DocumentServer
