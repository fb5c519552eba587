import DocumentServer.Double.Operations
import DocumentServer.Value.Basic

namespace DocumentServer

inductive Number where
  | integer (value : Int64)
  | double (value : Double)
  deriving DecidableEq

namespace Number

/-- Every NaN comes first. -/
def compareDoubles (d e : Double) : Ordering :=
  match d.isNaN, e.isNaN with
  | true, true => compare d.bits e.bits
  | true, false => .lt
  | false, true => .gt
  | false, false => compare d.place e.place

/-- Doubles out of the range of integers are told apart first. For the others the integer part is
compared, and then what is behind the point. -/
def compareMixed (i : Int64) (d : Double) : Ordering :=
  if d.isNaN then .gt
  else if Double.twoPow63.isAtMost d then .lt
  else if d.isBelow .minusTwoPow63 then .gt
  else
    let whole := d.trunc
    (compare i whole.toInt64).then
      (if whole.isBelow d then .lt else if d.isBelow whole then .gt else .eq)

def cmp : Number → Number → Ordering
  | integer i, integer j => compare i j
  | double d, double e => compareDoubles d e
  | integer i, double d => compareMixed i d
  | double d, integer i => (compareMixed i d).swap

end Number

def Value.number? {τ : Type} : Value τ → Option Number
  | scalar (.int32 n) => some (.integer n.toInt64)
  | scalar (.int64 n) => some (.integer n)
  | scalar (.double d) => some (.double d)
  | _ => none

end DocumentServer
