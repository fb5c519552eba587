import DocumentServer.Bytes
import DocumentServer.Text.Stored

namespace DocumentServer.Text.Utf8

/-- What is wrong with a byte string: `length` bytes from `index` on that no character can start
with, or an end in the middle of the character at `index`. -/
inductive Fault where
  | invalid (index length : Nat)
  | incomplete (index : Nat)
  deriving DecidableEq

def Fault.message : Fault → String
  | .invalid i n => s!"invalid utf-8 sequence of {n} bytes from index {i}"
  | .incomplete i => s!"incomplete utf-8 byte sequence from index {i}"

def following? (x : UInt8) : Option (List (UInt8 × UInt8)) :=
  if x ≤ 0x7f then some []
  else if 0xc2 ≤ x && x ≤ 0xdf then some [(0x80, 0xbf)]
  else if x = 0xe0 then some [(0xa0, 0xbf), (0x80, 0xbf)]
  else if x = 0xed then some [(0x80, 0x9f), (0x80, 0xbf)]
  else if 0xe1 ≤ x && x ≤ 0xef then some [(0x80, 0xbf), (0x80, 0xbf)]
  else if x = 0xf0 then some [(0x90, 0xbf), (0x80, 0xbf), (0x80, 0xbf)]
  else if 0xf1 ≤ x && x ≤ 0xf3 then some [(0x80, 0xbf), (0x80, 0xbf), (0x80, 0xbf)]
  else if x = 0xf4 then some [(0x80, 0x8f), (0x80, 0xbf), (0x80, 0xbf)]
  else none

/-- Reads the rest of the character at `start`, of which `got` bytes are read: the number of its
bytes, or the fault. -/
def continueCharacter (b : ByteArray) (start got : Nat) :
    List (UInt8 × UInt8) → Except Fault Nat
  | [] => .ok got
  | (low, high) :: rest =>
    if start + got ≥ b.size then .error (.incomplete start)
    else
      let x := Bytes.at0 b (start + got)
      if low ≤ x && x ≤ high then continueCharacter b start (got + 1) rest
      else .error (.invalid start got)

def faultFrom? (b : ByteArray) (i : Nat) : Nat → Option Fault
  | 0 => none
  | n + 1 =>
    if i ≥ b.size then none
    else match following? (Bytes.at0 b i) with
      | none => some (.invalid i 1)
      | some ranges => match continueCharacter b i 1 ranges with
        | .error fault => some fault
        | .ok length => faultFrom? b (i + length) n

/-- The first fault of a byte string; a string of `n` bytes has at most `n` characters. -/
def fault? (b : ByteArray) : Option Fault := faultFrom? b 0 b.size

def decode (b : ByteArray) : Except Fault String :=
  match String.fromUTF8? b with
  | some s => .ok s
  | none => .error ((fault? b).getD (.incomplete b.size))

end DocumentServer.Text.Utf8

namespace DocumentServer.Text

def ofRegion (region : Nat) (b : ByteArray) (start stop : Nat) : Except Utf8.Fault Text := do
  return ⟨← Utf8.decode (b.extract start stop), .view region start⟩

end DocumentServer.Text
