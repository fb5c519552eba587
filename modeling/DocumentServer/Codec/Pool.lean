import DocumentServer.Codec.Decode
import Std.Data.HashMap

namespace DocumentServer

/-- Which strings go into the pool, by whether they are likely to recur and by their bytes. -/
structure PoolPolicy where
  accepts : Bool → ByteArray → Bool

namespace PoolPolicy

def always : PoolPolicy := ⟨fun _ _ => true⟩

def onlyLikely : PoolPolicy := ⟨fun likely _ => likely⟩

def never : PoolPolicy := ⟨fun _ _ => false⟩

end PoolPolicy

inductive PoolPolicyKind where
  | always
  | onlyLikely
  | never
  deriving DecidableEq, Inhabited

namespace PoolPolicyKind

def policy : PoolPolicyKind → PoolPolicy
  | always => .always
  | onlyLikely => .onlyLikely
  | never => .never

def name : PoolPolicyKind → String
  | always => "always"
  | onlyLikely => "only_likely"
  | never => "never"

def ofName? : String → Option PoolPolicyKind
  | "always" => some always
  | "only_likely" => some onlyLikely
  | "never" => some never
  | _ => none

def unknown (s : String) : String := s!"unknown string pool policy: {s}"

end PoolPolicyKind

/-- Which texts of a document stay views of the region that it was decoded from. -/
inductive Strategy where
  | copy
  | borrow
  | borrowValues
  deriving DecidableEq, Inhabited

namespace Strategy

def name : Strategy → String
  | copy => "copy"
  | borrow => "borrow"
  | borrowValues => "borrow_values"

def ofName? : String → Option Strategy
  | "copy" | "heap" => some copy
  | "borrow" | "offheap" => some borrow
  | "borrow_values" | "offheap_values" => some borrowValues
  | _ => none

def unknown (s : String) : String := s!"unknown allocation strategy: {s}"

def borrows (isKey : Bool) : Strategy → Bool
  | copy => false
  | borrow => true
  | borrowValues => !isKey

end Strategy

/-- A pool together with what is known of the storage cells: how many texts hold each of them, and
the next cell that was never used. -/
structure Pool where
  policy : PoolPolicy
  interval : Nat
  interval_pos : 0 < interval
  cells : Std.HashMap String Nat
  holders : Std.HashMap Nat Nat
  insertions : Nat
  nextCell : Nat

namespace Pool

def defaultInterval : Nat := 4096

/-- An empty pool that sweeps after every `interval` insertions, zero counting as one. Cell zero is
left to texts that are part of the program. -/
def empty (policy : PoolPolicy) (interval : Nat) : Pool :=
  { policy
    interval := max interval 1
    interval_pos := by omega
    cells := ∅
    holders := ∅
    insertions := 0
    nextCell := 1 }

def size (p : Pool) : Nat := p.cells.size

def isLive (p : Pool) (cell : Nat) : Bool := p.holders.contains cell

def hold (p : Pool) (cell : Nat) : Pool :=
  { p with holders := p.holders.insert cell (p.holders.getD cell 0 + 1) }

def letGo (p : Pool) (cell : Nat) : Pool :=
  let n := p.holders.getD cell 0
  { p with holders := if n ≤ 1 then p.holders.erase cell else p.holders.insert cell (n - 1) }

def release (ts : List Text) (p : Pool) : Pool :=
  (ts.filterMap Text.cell?).foldl letGo p

def sweep (p : Pool) : Pool :=
  { p with cells := p.cells.filter fun _ cell => p.isLive cell }

def purge (p : Pool) : Nat × Pool := (p.size - p.sweep.size, p.sweep)

def allocate (s : String) (p : Pool) : Text × Pool :=
  (⟨s, .cell p.nextCell⟩, { p with nextCell := p.nextCell + 1 }.hold p.nextCell)

/-- Enters a string that is not in the pool alive. Every `interval`-th insertion sweeps. -/
def enter (s : String) (p : Pool) : Text × Pool :=
  let (t, q) := p.allocate s
  let q := { q with cells := q.cells.insert s p.nextCell, insertions := q.insertions + 1 }
  (t, if q.insertions % q.interval = 0 then q.sweep else q)

def intern (s : String) (p : Pool) : Text × Pool :=
  match p.cells[s]? with
  | some cell => if p.isLive cell then (⟨s, .cell cell⟩, p.hold cell) else p.enter s
  | none => p.enter s

/-- A text that says `s`, out of the pool if the policy accepts it. -/
def fetch (likely : Bool) (s : String) (p : Pool) : Text × Pool :=
  if p.policy.accepts likely s.toUTF8 then p.intern s else p.allocate s

/-- Keeps texts under a strategy: as views of a region in which their document starts at offset
`base`, or owned and fetched from the pool. -/
def keeper (strategy : Strategy) (region base : Nat) : Keeper Pool Text where
  keep f p :=
    if strategy.borrows f.isKey then (⟨f.content, .view region (base + f.offset)⟩, p)
    else p.fetch f.likely f.content
  drop := release

def restore (before p : Pool) : Pool := { p with holders := before.holders }

/-- Reads the document at offset `i` of a region. The texts of the document are held; after an
error nothing is held that was not held before. -/
def decode (p : Pool) (strategy : Strategy) (region : Nat) (b : ByteArray) (i : Nat) :
    Except DecodeError (Document Text × Nat) × Pool :=
  match Decode.documentAt (keeper strategy region i) b i p with
  | (.ok d, q) => (.ok d, q)
  | (.error e, q) => (.error e, p.restore q)

end Pool

end DocumentServer
