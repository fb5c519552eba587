import DocumentServer.Double

namespace DocumentServer.Double

structure Decimal where
  digits : Nat
  power : Int
  deriving DecidableEq

namespace Shortest

/-- The reals that round to a double, as fractions over `scale`; the ends belong to the interval
when the significand is even. -/
structure Interval where
  low : Nat
  value : Nat
  high : Nat
  scale : Nat
  closed : Bool

def interval (d : Double) : Interval :=
  let m := if d.exponent = 0 then d.fraction else leadingBit + d.fraction
  let below := if d.fraction = 0 && d.exponent > 1 then 1 else 2
  let shift := d.exponent - 1
  { low := (4 * m - below) <<< shift
    value := (4 * m) <<< shift
    high := (4 * m + 2) <<< shift
    scale := 4 * unitsPerOne
    closed := m % 2 = 0 }

def Interval.holds (i : Interval) (num den : Nat) : Bool :=
  if i.closed then i.low * den ≤ num * i.scale && num * i.scale ≤ i.high * den
  else i.low * den < num * i.scale && num * i.scale < i.high * den

def fractionOf (n : Nat) (k : Int) : Nat × Nat :=
  if k ≥ 0 then (n * Nat.pow 10 k.toNat, 1) else (n, Nat.pow 10 (-k).toNat)

/-- The multiple of `10 ^ k` in the interval that is nearest to its value, if there is one; a tie
goes to the even multiple. -/
def onGrid? (i : Interval) (k : Int) : Option Nat :=
  let (num, den) := if k ≥ 0 then (i.value, i.scale * Nat.pow 10 k.toNat)
    else (i.value * Nat.pow 10 (-k).toNat, i.scale)
  let q := num / den
  let r := num % den
  let inside (n : Nat) : Bool := let (a, b) := fractionOf n k; i.holds a b
  match inside q, inside (q + 1) with
  | true, true => some (if 2 * r < den || (2 * r = den && q % 2 = 0) then q else q + 1)
  | true, false => some q
  | false, true => some (q + 1)
  | false, false => none

def stripZeros (n : Nat) (k : Int) : Nat → Decimal
  | 0 => ⟨n, k⟩
  | fuel + 1 => if n ≠ 0 && n % 10 = 0 then stripZeros (n / 10) (k + 1) fuel else ⟨n, k⟩

def search (i : Interval) (k : Int) : Nat → Option (Nat × Int)
  | 0 => none
  | n + 1 => match onGrid? i k with
    | some (q + 1) => some (q + 1, k)
    | _ => search i (k - 1) n

/-- A power of ten above the value: the decimal length of its integer part, or one less than the
length of the reciprocal's, with a margin of one. -/
def topPower (i : Interval) : Int :=
  let whole := i.value / i.scale
  if whole > 0 then (Nat.toDigits 10 whole).length + 1
  else 2 - ((Nat.toDigits 10 (i.scale / i.value)).length : Int)

end Shortest

def shortest (d : Double) : Decimal :=
  let i := Shortest.interval d
  match Shortest.search i (Shortest.topPower i) 22 with
  | some (n, k) => Shortest.stripZeros n k 22
  | none => ⟨0, 0⟩

/-- How a format writes numbers: the decimal exponents that are written out in positions, and
whether a whole number keeps `.0` there. Outside that range the form is scientific with a signed
exponent. -/
structure Format where
  leastExponent : Int
  greatestExponent : Int
  keepsPoint : Bool
  signsExponent : Bool

def positional (f : Format) (digits : List Char) (places : Int) : String :=
  if places ≤ 0 then
    String.ofList ('0' :: '.' :: List.replicate (-places).toNat '0' ++ digits)
  else if places.toNat < digits.length then
    String.ofList (digits.take places.toNat ++ '.' :: digits.drop places.toNat)
  else
    String.ofList (digits ++ List.replicate (places.toNat - digits.length) '0')
      ++ (if f.keepsPoint then ".0" else "")

def scientific (f : Format) (digits : List Char) (exponent : Int) : String :=
  let sign := if exponent < 0 then "-" else if f.signsExponent then "+" else ""
  String.ofList (digits.take 1)
    ++ (if digits.length > 1 then String.ofList ('.' :: digits.drop 1) else "")
    ++ "e" ++ sign ++ toString exponent.natAbs

def render (f : Format) (d : Double) : String :=
  let sign := if d.negative then "-" else ""
  if d.isZero then sign ++ positional f ['0'] 1
  else
    let s := d.shortest
    let digits := Nat.toDigits 10 s.digits
    let exponent := s.power + digits.length - 1
    sign ++ if f.leastExponent ≤ exponent && exponent ≤ f.greatestExponent
      then positional f digits (exponent + 1)
      else scientific f digits exponent

def renderSpecial (d : Double) : String :=
  if d.isNaN then "NaN" else if d.negative then "-inf" else "inf"

end DocumentServer.Double
