import DocumentServer.Value.Basic
import Std.Data.HashMap

namespace DocumentServer.Document

def scanLimit : Nat := 16

structure Builder (τ : Type) where
  entries : Array (τ × Value τ)
  index : Option (Std.HashMap String Nat)

namespace Builder

variable {τ : Type} [HasContent τ]

def empty : Builder τ := ⟨#[], none⟩

def withCapacity (room : Nat) : Builder τ := ⟨Array.emptyWithCapacity room, none⟩

def size (b : Builder τ) : Nat := b.entries.size

def position? (b : Builder τ) (key : String) : Option Nat :=
  match b.index with
  | some index => index[key]?
  | none => b.entries.findIdx? fun e => HasContent.content e.1 = key

def contains (b : Builder τ) (key : String) : Bool := (b.position? key).isSome

def indexFrom (index : Std.HashMap String Nat) (i : Nat) :
    List (τ × Value τ) → Std.HashMap String Nat
  | [] => index
  | (k, _) :: es => indexFrom (index.insert (HasContent.content k) i) (i + 1) es

/-- A new entry at the end; the index starts when the entries grow past the limit. -/
def push (b : Builder τ) (key : τ) (value : Value τ) : Builder τ :=
  let i := b.entries.size
  let index := match b.index with
    | some index => some (index.insert (HasContent.content key) i)
    | none =>
      if i + 1 > scanLimit then
        some ((indexFrom ∅ 0 b.entries.toList).insert (HasContent.content key) i)
      else none
  ⟨b.entries.push (key, value), index⟩

def replace (b : Builder τ) (i : Nat) (value : Value τ) : Builder τ :=
  ⟨b.entries.modify i fun e => (e.1, value), b.index⟩

def insert (b : Builder τ) (key : τ) (value : Value τ) : Builder τ :=
  match b.position? (HasContent.content key) with
  | some i => b.replace i value
  | none => b.push key value

/-- The texts that no entry holds any more when a key is inserted: those of the value that is
replaced, and the second copy of the key. -/
def displaced (b : Builder τ) (key : τ) : List τ :=
  match b.position? (HasContent.content key) with
  | some i => match b.entries[i]? with
    | some e => key :: e.2.texts
    | none => []
  | none => []

def build (b : Builder τ) : Document τ := b.entries.toList

def insertAll (b : Builder τ) : List (τ × Value τ) → Builder τ
  | [] => b
  | (k, v) :: es => (b.insert k v).insertAll es

def ofDocument (d : Document τ) : Builder τ := empty.insertAll d

end Builder

variable {τ : Type} [HasContent τ]

/-- The document of a list of pairs, where a repeated key keeps its first place and takes its last
value. -/
def ofPairs (es : List (τ × Value τ)) : Document τ := (Builder.empty.insertAll es).build

end DocumentServer.Document
