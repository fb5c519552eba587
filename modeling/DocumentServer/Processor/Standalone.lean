import DocumentServer.Command.Builtin
import DocumentServer.Processor.Basic

namespace DocumentServer

/-- What a server on its own sees of the world: the time at each look at its clock, and the number
that each throw of its dice gives. -/
structure Surroundings where
  clock : Nat → Int64
  dice : Nat → UInt64
  looks : Nat
  throws : Nat

namespace Surroundings

def now (s : Surroundings) : Int64 × Surroundings :=
  (s.clock s.looks, { s with looks := s.looks + 1 })

def number (s : Surroundings) : UInt64 × Surroundings :=
  (s.dice s.throws, { s with throws := s.throws + 1 })

end Surroundings

namespace Standalone

variable {ε δ : Type}

abbrev Step (δ : Type) : Type := Operation Surroundings (Outcome δ)

def nonceDigits (n : UInt64) : String := Text.Hex.encode (Bytes.ofUInt64 n)

def ping : Step δ := fun c s => (.ok .done, c, s)

def isMaster : Step δ := fun c s =>
  let (t, s) := s.now
  (.ok (.role (.standalone t)), c, s)

def buildInfo : Step δ := fun c s => (.ok (.build .current), c, s)

def getNonce : Step δ := fun c s =>
  let (n, s) := s.number
  (.ok (.nonce (nonceDigits n)), c, s)

/-- There are no collections, so there is none to drop indexes of. -/
def dropIndexes (x : Context) (m : DropIndexes) : Step δ :=
  .refuse ⟨.namespaceNotFound, s!"ns not found: {x.database}.{m.collection}"⟩

def getLastError : Step δ := fun c s => (.ok (.lastOutcome ⟨0, c.lastError⟩), c, s)

def plain (step : Step δ) : Argument ε → Option (Context → Step δ)
  | .none => some fun _ => step
  | _ => none

def executors : Executors (Argument ε) (Outcome δ) Surroundings :=
  [("ping", plain ping), ("isMaster", plain isMaster), ("buildInfo", plain buildInfo),
    ("getnonce", plain getNonce),
    ("dropIndexes", fun
      | .dropIndexes m => some fun x => dropIndexes x m
      | _ => none),
    ("getLastError", fun
      | .lastError _ => some fun _ => getLastError
      | _ => none)]

def processor : Processor (Argument ε) (Outcome δ) Surroundings := { execute := executors.execute }

end Standalone

end DocumentServer
