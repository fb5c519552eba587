namespace DocumentServer

/-- An IEEE 754 double, given by its 64 bits. -/
structure Double where
  bits : UInt64
  deriving DecidableEq

namespace Double

def signBit : Nat := 0x8000000000000000

def leadingBit : Nat := 0x10000000000000

def negative (d : Double) : Bool := signBit ≤ d.bits.toNat

def exponent (d : Double) : Nat := d.bits.toNat / leadingBit % 2048

def fraction (d : Double) : Nat := d.bits.toNat % leadingBit

def isNaN (d : Double) : Bool := d.exponent = 2047 && d.fraction ≠ 0

def isFinite (d : Double) : Bool := d.exponent ≠ 2047

def unitsPerOne : Nat := 1 <<< 1074

/-- The absolute value in units. For an infinity this is above the size of every finite double. -/
def magnitude (d : Double) : Nat :=
  if d.exponent = 0 then d.fraction else (leadingBit + d.fraction) <<< (d.exponent - 1)

def units (d : Double) : Int :=
  if d.negative then -(d.magnitude : Int) else d.magnitude

/-- The integer part, the fraction dropped; for an infinity an integer past every finite double. -/
def truncated (d : Double) : Int := d.units.tdiv (unitsPerOne : Int)

def zero : Double := ⟨0⟩

def one : Double := ⟨0x3ff0000000000000⟩

def isZero (d : Double) : Bool := d.magnitude = 0

def roundedQuotient (n s : Nat) : Nat :=
  let unit := 1 <<< s
  let q := n / unit
  let r := n % unit
  let half := unit / 2
  if r > half || (r = half && q % 2 = 1) then q + 1 else q

/-- The double nearest to an integer below `2 ^ 1023` in size, a tie going to the even neighbour.
A carry out of the 53 bits runs into the exponent field, where it belongs. -/
def ofInt (i : Int) : Double :=
  let n := i.natAbs
  if n = 0 then zero
  else
    let k := n.log2
    let lead := if k ≤ 52 then n <<< (52 - k) else roundedQuotient n (k - 52)
    let pattern := (k + 1022) * leadingBit + lead
    ⟨UInt64.ofNat (if i < 0 then pattern + signBit else pattern)⟩

end Double

end DocumentServer
