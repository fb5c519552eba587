namespace DocumentServer

/-- Where the bytes of a text live: in a storage cell of their own, or at an offset of the region
that the document was decoded from. -/
inductive Storage where
  | cell (id : Nat)
  | view (region start : Nat)
  deriving DecidableEq, Inhabited

/-- A text with its storage. What it says is its content; two texts that say the same are
interchangeable wherever storage is not asked for. -/
structure Text where
  content : String
  storage : Storage
  deriving DecidableEq, Inhabited

namespace Text

def isView (t : Text) : Bool :=
  match t.storage with
  | .view _ _ => true
  | .cell _ => false

def cell? (t : Text) : Option Nat :=
  match t.storage with
  | .cell c => some c
  | .view _ _ => none

def sameStorage (s t : Text) : Bool :=
  s.storage = t.storage && s.content.utf8ByteSize = t.content.utf8ByteSize

/-- A view moved into the storage cell `next`; an owned text as it is. The second part is the next
unused cell. -/
def detach (t : Text) (next : Nat) : Text × Nat :=
  match t.storage with
  | .view _ _ => (⟨t.content, .cell next⟩, next + 1)
  | .cell _ => (t, next)

end Text

/-- What a key or payload says, whether or not it carries storage. -/
class HasContent (τ : Type) where
  content : τ → String

instance : HasContent String := ⟨id⟩

instance : HasContent Text := ⟨Text.content⟩

end DocumentServer
