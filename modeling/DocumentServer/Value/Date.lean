namespace DocumentServer.Date

def firstMillisecond : Int := -8334601228800000

def lastMillisecond : Int := 8210266876799999

structure Day where
  year : Int
  month : Nat
  day : Nat
  deriving DecidableEq

/-- The day that is a number of days after the first of January 1970. Years are counted from March
on, so that the leap day is the last of its year, in cycles of 146097 days. -/
def Day.ofCount (n : Int) : Day :=
  let z := n + 719468
  let cycle := z.fdiv 146097
  let inCycle := (z.fmod 146097).toNat
  let yearOfCycle := (inCycle - inCycle / 1460 + inCycle / 36524 - inCycle / 146096) / 365
  let inYear := inCycle - (365 * yearOfCycle + yearOfCycle / 4 - yearOfCycle / 100)
  let march := (5 * inYear + 2) / 153
  let day := inYear - (153 * march + 2) / 5 + 1
  let month := if march < 10 then march + 3 else march - 9
  ⟨cycle * 400 + yearOfCycle + (if month ≤ 2 then 1 else 0), month, day⟩

def padded (width n : Nat) : String :=
  let digits := Nat.toDigits 10 n
  String.ofList (List.replicate (width - digits.length) '0' ++ digits)

/-- A year from 0 to 9999 has four digits; any other has a sign before at least four. -/
def year (y : Int) : String :=
  if 0 ≤ y && y ≤ 9999 then padded 4 y.toNat
  else (if y < 0 then "-" else "+") ++ padded 4 y.natAbs

def render? (millis : Int) : Option String :=
  if firstMillisecond ≤ millis && millis ≤ lastMillisecond then
    let second := millis.fdiv 1000
    let fraction := (millis.fmod 1000).toNat
    let d := Day.ofCount (second.fdiv 86400)
    let s := (second.fmod 86400).toNat
    some (year d.year ++ "-" ++ padded 2 d.month ++ "-" ++ padded 2 d.day
      ++ "T" ++ padded 2 (s / 3600) ++ ":" ++ padded 2 (s / 60 % 60) ++ ":" ++ padded 2 (s % 60)
      ++ (if fraction = 0 then "" else "." ++ padded 3 fraction) ++ "+00:00")
  else none

end DocumentServer.Date
