namespace DocumentServer

def Read (ε σ α : Type) : Type := Nat → σ → Except ε (α × Nat) × σ

namespace Read

variable {ε σ α β : Type}

instance : Monad (Read ε σ) where
  pure a := fun i s => (.ok (a, i), s)
  bind p f := fun i s =>
    match p i s with
    | (.ok (a, j), t) => f a j t
    | (.error e, t) => (.error e, t)

def fail (e : ε) : Read ε σ α := fun _ s => (.error e, s)

def offset : Read ε σ Nat := fun i s => (.ok (i, i), s)

theorem pure_apply (a : α) (i : Nat) (s : σ) : (pure a : Read ε σ α) i s = (.ok (a, i), s) := rfl

theorem bind_apply (p : Read ε σ α) (f : α → Read ε σ β) (i : Nat) (s : σ) :
    (p >>= f) i s =
      match p i s with
      | (.ok (a, j), t) => f a j t
      | (.error e, t) => (.error e, t) := rfl

def times (p : Read ε σ α) : Nat → Array α → Read ε σ (List α)
  | 0, out => pure out.toList
  | n + 1, out => do times p n (out.push (← p))

end Read

end DocumentServer
