namespace DocumentServer.Bytes

instance decidableEq : DecidableEq ByteArray := ByteArray.instDecidableEq

/-- The byte at an offset, and zero past the end. -/
def at0 (b : ByteArray) (i : Nat) : UInt8 :=
  if h : i < b.size then b[i] else 0

/-- The number whose little-endian digits are the `n` bytes from offset `i` on. -/
def number (b : ByteArray) (i : Nat) : Nat → Nat
  | 0 => 0
  | n + 1 => (at0 b i).toNat + 256 * number b (i + 1) n

def digits (out : ByteArray) : Nat → Nat → ByteArray
  | 0, _ => out
  | n + 1, v => digits (out.push (UInt8.ofNat (v % 256))) n (v / 256)

def uint32 (b : ByteArray) (i : Nat) : UInt32 := UInt32.ofNat (number b i 4)

def uint64 (b : ByteArray) (i : Nat) : UInt64 := UInt64.ofNat (number b i 8)

def int32 (b : ByteArray) (i : Nat) : Int32 := (uint32 b i).toInt32

def int64 (b : ByteArray) (i : Nat) : Int64 := (uint64 b i).toInt64

def ofUInt32 (w : UInt32) : ByteArray := digits ByteArray.empty 4 w.toNat

def ofUInt64 (w : UInt64) : ByteArray := digits ByteArray.empty 8 w.toNat

def ofInt32 (w : Int32) : ByteArray := ofUInt32 w.toUInt32

def ofInt64 (w : Int64) : ByteArray := ofUInt64 w.toUInt64

def ofSize (n : Nat) : ByteArray := ofUInt32 (UInt32.ofNat n)

/-- The first zero among the `n` bytes from offset `i` on. -/
def findZero? (b : ByteArray) (i : Nat) : Nat → Option Nat
  | 0 => none
  | n + 1 => if at0 b i = 0 then some i else findZero? b (i + 1) n

def hasZero (b : ByteArray) : Bool := (findZero? b 0 b.size).isSome

/-- Lexicographic order from offset `i` on, over at most `n` bytes; a proper initial part comes
first. -/
def compareFrom (a b : ByteArray) (i : Nat) : Nat → Ordering
  | 0 => compare a.size b.size
  | n + 1 => (compare (at0 a i) (at0 b i)).then (compareFrom a b (i + 1) n)

def compareBytes (a b : ByteArray) : Ordering := compareFrom a b 0 (min a.size b.size)

theorem size_digits (out : ByteArray) (n v : Nat) : (digits out n v).size = out.size + n := by
  induction n generalizing out v with
  | zero => rfl
  | succ n ih => simp only [digits, ih, ByteArray.size_push]; omega

theorem size_ofUInt32 (w : UInt32) : (ofUInt32 w).size = 4 := by
  simp [ofUInt32, size_digits]

theorem size_ofUInt64 (w : UInt64) : (ofUInt64 w).size = 8 := by
  simp [ofUInt64, size_digits]

theorem size_ofSize (n : Nat) : (ofSize n).size = 4 := size_ofUInt32 _

end DocumentServer.Bytes
