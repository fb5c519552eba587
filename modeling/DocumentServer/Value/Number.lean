import DocumentServer.Double.Operations
import DocumentServer.Value.Json

namespace DocumentServer

inductive NumberType where
  | int32
  | int64
  | double
  deriving DecidableEq

def NumberType.name : NumberType → String
  | int32 => "int32"
  | int64 => "int64"
  | double => "double"

inductive NumberFault where
  | notNumeric
  | lossy (target : NumberType)
  deriving DecidableEq

def NumberFault.message (v : Value String) : NumberFault → String
  | notNumeric => s!"value of type {v.tag.name} is not numeric"
  | lossy target => s!"cannot convert {v.render} to {target.name} without losing information"

namespace Value

variable {τ : Type}

/-- A double is taken if it is whole and not outside of the bounds, which are doubles. -/
def toInt32 : Value τ → Except NumberFault Int32
  | scalar (.int32 n) => .ok n
  | scalar (.int64 n) =>
    if Int32.minValue.toInt ≤ n.toInt ∧ n.toInt ≤ Int32.maxValue.toInt then .ok n.toInt32
    else .error (.lossy .int32)
  | scalar (.double d) =>
    if d.isWhole && (Double.ofInt Int32.minValue.toInt).isAtMost d &&
        d.isAtMost (.ofInt Int32.maxValue.toInt) then .ok d.toInt32
    else .error (.lossy .int32)
  | _ => .error .notNumeric

/-- The greatest integer is no double; the bound that a double has to stay below is one more. -/
def toInt64 : Value τ → Except NumberFault Int64
  | scalar (.int32 n) => .ok n.toInt64
  | scalar (.int64 n) => .ok n
  | scalar (.double d) =>
    if d.isWhole && Double.minusTwoPow63.isAtMost d && d.isBelow .twoPow63 then .ok d.toInt64
    else .error (.lossy .int64)
  | _ => .error .notNumeric

/-- A long integer is taken if the nearest double is equal to it. -/
def toDouble : Value τ → Except NumberFault Double
  | scalar (.double d) => .ok d
  | scalar (.int32 n) => .ok (.ofInt n.toInt)
  | scalar (.int64 n) =>
    let d := Double.ofInt n.toInt
    if d.toInt128 = n.toInt then .ok d else .error (.lossy .double)
  | _ => .error .notNumeric

def truncatedInt64 : Value τ → Except NumberFault Int64
  | scalar (.int32 n) => .ok n.toInt64
  | scalar (.int64 n) => .ok n
  | scalar (.double d) => .ok d.toInt64
  | _ => .error .notNumeric

end Value

end DocumentServer
