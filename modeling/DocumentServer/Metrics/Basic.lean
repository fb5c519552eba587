import DocumentServer.Double
import DocumentServer.Message.ErrorCode
import DocumentServer.Message.Opcode

namespace DocumentServer

/-- Values by label, in increasing order of the labels. -/
abbrev Labelled (α : Type) : Type := List (String × α)

namespace Labelled

variable {α : Type}

def adjust (start : α) (label : String) (f : α → α) : Labelled α → Labelled α
  | [] => [(label, f start)]
  | (l, a) :: rest =>
    if l = label then (l, f a) :: rest
    else if label < l then (label, f start) :: (l, a) :: rest
    else (l, a) :: adjust start label f rest

def count (label : String) (xs : Labelled Nat) : Labelled Nat := adjust 0 label (· + 1) xs

def total (label : String) (xs : Labelled Nat) : Nat := (xs.lookup label).getD 0

end Labelled

/-- How many durations fell into each bucket, their sum and their number. A duration goes into the
first bucket whose bound it does not pass; the longest go into none. -/
structure Histogram where
  buckets : List Nat
  sum : Double
  count : Nat

namespace Histogram

def bounds : List (String × Double) :=
  [("0.0001", ⟨0x3f1a36e2eb1c432d⟩), ("0.0005", ⟨0x3f40624dd2f1a9fc⟩),
    ("0.001", ⟨0x3f50624dd2f1a9fc⟩), ("0.005", ⟨0x3f747ae147ae147b⟩),
    ("0.01", ⟨0x3f847ae147ae147b⟩), ("0.025", ⟨0x3f9999999999999a⟩),
    ("0.05", ⟨0x3fa999999999999a⟩), ("0.1", ⟨0x3fb999999999999a⟩), ("0.25", ⟨0x3fd0000000000000⟩),
    ("0.5", ⟨0x3fe0000000000000⟩), ("1", ⟨0x3ff0000000000000⟩)]

def empty : Histogram := ⟨bounds.map fun _ => 0, .zero, 0⟩

def enter (x : Double) : List (String × Double) → List Nat → List Nat
  | (_, bound) :: bounds, n :: ns =>
    if !x.isNaN && x.units ≤ bound.units then (n + 1) :: ns else n :: enter x bounds ns
  | _, ns => ns

def plus (x y : Double) : Double := ⟨(Float.ofBits x.bits + Float.ofBits y.bits).toBits⟩

def observe (x : Double) (h : Histogram) : Histogram :=
  ⟨enter x bounds h.buckets, plus h.sum x, h.count + 1⟩

end Histogram

structure Metrics where
  connections : Nat
  activeConnections : Int
  requests : Labelled Nat
  commands : Labelled Nat
  errors : Labelled Nat
  durations : Labelled Histogram
  decodeFailures : Nat
  internedStrings : Int

namespace Metrics

def empty : Metrics := ⟨0, 0, [], [], [], [], 0, 0⟩

def countRequest (op : Opcode) (seconds : Double) (m : Metrics) : Metrics :=
  { m with
    requests := m.requests.count op.name
    durations := m.durations.adjust .empty op.name (.observe seconds) }

def countCommand (name : String) (m : Metrics) : Metrics :=
  { m with commands := m.commands.count name }

def countError (code : ErrorCode) (m : Metrics) : Metrics :=
  { m with errors := m.errors.count code.name }

def countDecodeFailure (m : Metrics) : Metrics := { m with decodeFailures := m.decodeFailures + 1 }

def openConnection (m : Metrics) : Metrics :=
  { m with connections := m.connections + 1, activeConnections := m.activeConnections + 1 }

def closeConnection (m : Metrics) : Metrics :=
  { m with activeConnections := m.activeConnections - 1 }

def setInterned (n : Nat) (m : Metrics) : Metrics := { m with internedStrings := n }

end Metrics

end DocumentServer
