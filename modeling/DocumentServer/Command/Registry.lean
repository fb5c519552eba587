import DocumentServer.Command.Basic
import DocumentServer.Server.Error
import Std.Data.HashMap

namespace DocumentServer

structure Registry (α ρ : Type) where
  commands : Array (Command α ρ)
  /-- The position of the command of each name. -/
  slots : Std.HashMap String Nat

namespace Registry

variable {α ρ : Type}

def empty : Registry α ρ := ⟨#[], ∅⟩

def size (r : Registry α ρ) : Nat := r.commands.size

/-- Adds a command under all of its names, unless one of them is taken. -/
def register (r : Registry α ρ) (c : Command α ρ) : Except ServerError (Registry α ρ) :=
  match c.names.find? r.slots.contains with
  | some taken => .error (.duplicateCommand taken)
  | none =>
    .ok ⟨r.commands.push c, c.names.foldl (fun slots n => slots.insert n r.commands.size) r.slots⟩

def registerAll (r : Registry α ρ) : List (Command α ρ) → Except ServerError Unit × Registry α ρ
  | [] => (.ok (), r)
  | c :: cs =>
    match r.register c with
    | .ok r => r.registerAll cs
    | .error e => (.error e, r)

def find? (r : Registry α ρ) (key : String) : Option (Command α ρ × String) := do
  let slot ← r.slots[key]?
  return (← r.commands[slot]?, key)

/-- The command that the first key of a document names. -/
def resolve (r : Registry α ρ) (d : Document String) :
    Except WireError (Command α ρ × String) :=
  match Document.firstKey? d with
  | none => .error ⟨.commandNotFound, "no such command: empty document query"⟩
  | some key =>
    match r.find? key with
    | some found => .ok found
    | none => .error ⟨.commandNotFound, s!"no such command: '{key}'"⟩

end Registry

end DocumentServer
