import DocumentServer.Message.Tagged
import DocumentServer.Script.Basic

namespace DocumentServer

open Tagged

/-- A way to read a field by its name, with a default for those that have one. -/
def FieldReader.ofTagged? (name : String) (default : Option Json) : Option FieldReader :=
  let given {α : Type} (read : Json → Option α) (absent : α) := default.elim (some absent) read
  match name with
  | "value" => some value
  | "str" => some string
  | "str_or" => (given text? "").map stringOr
  | "i32" => some int32
  | "i32_or" => (given int32? 0).map int32Or
  | "i64" => some int64
  | "i64_or" => (given int64? 0).map int64Or
  | "f64" => some double
  | "numeric" => some numeric
  | "bool" => some boolean
  | "bool_or" => (given Json.bool? false).map booleanOr
  | "bool_or_numeric" => (given Json.bool? false).map flag
  | "pseudo_true" => some isSet
  | "document" => some document
  | "array" => some array
  | "object_id" => some objectId
  | "datetime" => some datetime
  | "timestamp" => some timestamp
  | _ => none

def Action.ofTagged? : Json → Option Action
  | .string "echo" => some echo
  | .string "wrong_result" => some wrongResult
  | .string "wrong_arg" => some wrongArgument
  | j =>
    match j.field? "result" with
    | some d => (document? d).map result
    | none => ((j.get? "error").bind WireError.ofTagged?).map failure

namespace ScriptedCommand

def calledByKey : String := "@alias"

def read? (j : Json) : Option (FieldReader × Option String) := do
  let xs ← j.items?
  let key ← xs[1]?.bind text?
  let reader ← FieldReader.ofTagged? (← xs[0]?.bind Json.string?) xs[2]?
  return (reader, if key = calledByKey then none else some key)

def ofTagged? (j : Json) : Option ScriptedCommand := do
  return ⟨← textField? j "name", ← j.list "aliases" text?, ← j.isOn "admin_only",
    ← j.perhaps "only" (Json.many text?), ← j.list "reads" read?,
    ← j.perhaps "marshal_error" WireError.ofTagged?, ← j.perhaps "exec" Action.ofTagged?⟩

end ScriptedCommand

def scriptedError? (j : Json) : Option (Option WireError) := j.perhaps "error" WireError.ofTagged?

def ScriptedReply.ofTagged? : Json → Option ScriptedReply
  | .string "echo" => some echo
  | j => do
    match ← scriptedError? j with
    | some e => return failure e
    | none => return reply (← Reply.ofTagged? j)

def scriptedWrite? (j : Json) : Option (Except WireError Unit) := do
  match ← scriptedError? j with
  | some e => return .error e
  | none => return .ok ()

def Script.ofTagged? (commands : List ScriptedCommand) (j : Json) : Option Script := do
  return ⟨commands, ← j.perhaps "query" ScriptedReply.ofTagged?,
    ← j.perhaps "get_more" ScriptedReply.ofTagged?, ← j.perhaps "insert" scriptedWrite?,
    ← j.perhaps "update" scriptedWrite?, ← j.perhaps "delete" scriptedWrite?,
    ← j.perhaps "kill_cursors" scriptedWrite?⟩

end DocumentServer
