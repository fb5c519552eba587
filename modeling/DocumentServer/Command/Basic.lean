import DocumentServer.Command.ReplyDocument
import DocumentServer.Text.Quoted

namespace DocumentServer

structure Command (α ρ : Type) where
  name : String
  /-- Other spellings of the name. -/
  aliases : List String
  /-- Whether the command may only be run against the administrative database. -/
  adminOnly : Bool
  /-- Reads the argument; the text is the spelling that the client used. -/
  argument : Document String → String → Except WireError α
  /-- Writes a result, if it is one of this command. -/
  document? : ρ → Option (Except WireError (Document String))

namespace Command

variable {α ρ : Type} (c : Command α ρ)

def names : List String := c.name :: c.aliases

def wrongResult : WireError :=
  ⟨.internalError, s!"{c.name} was executed with a result of the wrong type"⟩

def wrongArgument : WireError :=
  ⟨.internalError, s!"{c.name} received an argument of the wrong type"⟩

def unsupported : WireError := ⟨.commandNotSupported, s!"{c.name} is not supported"⟩

def notAdmin : WireError :=
  ⟨.unauthorized, s!"{c.name} may only be run against the admin database."⟩

/-- The document of a result. Whatever hinders the writing is a failure to parse. -/
def result (r : ρ) : Except WireError (Document String) :=
  match c.document? r with
  | none => .error c.wrongResult
  | some (.error e) => .error ⟨.failedToParse, e.message⟩
  | some (.ok d) => .ok d

def describe : String :=
  let quoted := ", ".intercalate (c.aliases.map Text.Quoted.ofString)
  s!"CommandDescriptor \x7b name: {Text.Quoted.ofString c.name}, aliases: [{quoted}], "
    ++ s!"admin_only: {c.adminOnly} \x7d"

end Command

end DocumentServer
