import DocumentServer.Json

namespace DocumentServer.Json

variable {α : Type}

def field? (j : Json) (key : String) : Option Json :=
  match j.get? key with
  | some .null => none
  | v => v

def perhaps (j : Json) (key : String) (read : Json → Option α) : Option (Option α) :=
  match j.field? key with
  | some v => (read v).map some
  | none => some none

def orElse (j : Json) (key : String) (read : Json → Option α) (default : α) : Option α := do
  return (← j.perhaps key read).getD default

def many (read : Json → Option α) (j : Json) : Option (List α) := do (← j.items?).mapM read

def list (j : Json) (key : String) (read : Json → Option α) : Option (List α) :=
  j.orElse key (many read) []

def isOn (j : Json) (key : String) : Option Bool := j.orElse key bool? false

end DocumentServer.Json
