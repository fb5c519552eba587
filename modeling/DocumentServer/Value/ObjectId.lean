import DocumentServer.Bytes
import DocumentServer.Text.Hex
import DocumentServer.Text.Quoted

namespace DocumentServer

structure ObjectId where
  bytes : ByteArray
  size_eq : bytes.size = 12
  deriving DecidableEq

namespace ObjectId

def toHex (o : ObjectId) : String := Text.Hex.encode o.bytes

def seconds (o : ObjectId) : Nat :=
  (Bytes.at0 o.bytes 0).toNat * 0x1000000 + (Bytes.at0 o.bytes 1).toNat * 0x10000
    + (Bytes.at0 o.bytes 2).toNat * 0x100 + (Bytes.at0 o.bytes 3).toNat

/-- The twelve bytes of a region from an offset on; zeros stand for bytes past its end. -/
def ofRegion (b : ByteArray) (i : Nat) : ObjectId :=
  let c := b.extract i (i + 12)
  if h : c.size = 12 then ⟨c, h⟩ else ⟨Bytes.digits ByteArray.empty 12 0, Bytes.size_digits _ _ _⟩

def ofHex (s : String) : Except Text.Hex.Fault ObjectId :=
  match h : Text.Hex.decode 12 s with
  | .ok b => .ok ⟨b, Text.Hex.size_decode h⟩
  | .error e => .error e

def faultMessage (s : String) (fault : Text.Hex.Fault) : String :=
  let reason := match fault with
    | .oddLength => "Odd number of digits"
    | .wrongLength => "Invalid string length"
    | .notDigit x i =>
      s!"Invalid character {Text.Quoted.ofChar (Char.ofNat x.toNat)} at position {i}"
  s!"invalid object id: {s}: {reason}"

end ObjectId

end DocumentServer
