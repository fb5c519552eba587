import DocumentServer.Double

namespace DocumentServer

namespace Double

def isBelow (d e : Double) : Bool := !d.isNaN && !e.isNaN && d.units < e.units

def isAtMost (d e : Double) : Bool := !d.isNaN && !e.isNaN && d.units ≤ e.units

/-- The place of a bit pattern in the total order: the patterns with a sign come first, in
reverse. -/
def place (d : Double) : Int :=
  if d.negative then -1 - (d.bits.toNat - signBit : Nat) else d.bits.toNat

def trunc (d : Double) : Double :=
  ⟨UInt64.ofNat (if d.exponent < 1023 then if d.negative then signBit else 0
    else d.bits.toNat - d.fraction % (1 <<< (1075 - d.exponent)))⟩

def isWhole (d : Double) : Bool := d.isFinite && d.units = d.trunc.units

/-- The cast to the integers between two bounds: what is behind the point is dropped, what is out of
bounds goes to the nearest one, and a NaN becomes zero. -/
def castTo (least greatest : Int) (d : Double) : Int :=
  if d.isNaN then 0 else max least (min d.truncated greatest)

def toInt32 (d : Double) : Int32 :=
  Int32.ofInt (d.castTo Int32.minValue.toInt Int32.maxValue.toInt)

def toInt64 (d : Double) : Int64 :=
  Int64.ofInt (d.castTo Int64.minValue.toInt Int64.maxValue.toInt)

def toInt128 (d : Double) : Int :=
  d.castTo (-0x80000000000000000000000000000000) 0x7fffffffffffffffffffffffffffffff

def twoPow63 : Double := ⟨0x43e0000000000000⟩

def minusTwoPow63 : Double := ⟨0xc3e0000000000000⟩

end Double

end DocumentServer
