import DocumentServer.Json.Fields
import DocumentServer.Message.Reply
import DocumentServer.Value.Tagged

namespace DocumentServer

namespace Tagged

def int32? (j : Json) : Option Int32 := (integer? j).map Int32.ofInt

def int64? (j : Json) : Option Int64 := (integer? j).map Int64.ofInt

def word? (j : Json) : Option UInt32 := (natural? j).map UInt32.ofNat

def ofInt32 (n : Int32) : Json := .integer n.toInt

def ofOption {α : Type} (f : α → Json) : Option α → Json
  | some a => f a
  | none => .null

def ofDocuments (ds : List (Document String)) : Json := .array (ds.map ofDocument)

def textField? (j : Json) (key : String) : Option String := (j.get? key).bind text?

def documentOrEmpty (j : Json) (key : String) : Option (Document String) :=
  j.orElse key document? []

end Tagged

open Tagged

namespace WireError

def toTagged (e : WireError) : Json :=
  .object [("code", .integer e.code.number), ("name", .string e.code.name),
    ("message", .string e.message)]

def ofTagged? (j : Json) : Option WireError := do
  return ⟨← ErrorCode.ofNumber? (← (j.get? "code").bind integer?), ← textField? j "message"⟩

end WireError

def QueryOptions.toTagged (o : QueryOptions) : Json :=
  .object [("bits", .integer o.bits.toNat), ("tailable", .bool o.tailable),
    ("slave_ok", .bool o.slaveOk), ("oplog", .bool o.oplogReplay),
    ("no_timeout", .bool o.noCursorTimeout), ("await", .bool o.awaitData),
    ("exhaust", .bool o.exhaust), ("partial", .bool o.partialResults)]

def ReplyFlags.toTagged (f : ReplyFlags) : Json :=
  .object [("bits", .integer f.bits.toNat), ("cursor_not_found", .bool f.cursorNotFound),
    ("query_failure", .bool f.queryFailure), ("await_capable", .bool f.awaitCapable)]

def Namespace.toTagged (n : Namespace) : Json :=
  .array [.string n.database, .string n.collection]

def Namespace.ofTagged? (j : Json) : Option Namespace :=
  match j with
  | .array [d, c] => do return ⟨← text? d, ← text? c⟩
  | _ => none

namespace Request

def taggedBody : Request → Json
  | query q =>
    .object [("flags", q.options.toTagged), ("skip", ofInt32 q.skip),
      ("return", ofInt32 q.numberToReturn), ("limit", .integer q.limit),
      ("autoclose", .bool q.closesCursor), ("command", .bool q.isCommand),
      ("query", ofDocument q.query), ("projection", ofOption ofDocument q.projection)]
  | insert m =>
    .object [("continue_on_error", .bool m.continueOnError),
      ("documents", ofDocuments m.documents)]
  | update m =>
    .object [("upsert", .bool m.upsert), ("multi", .bool m.multi),
      ("selector", ofDocument m.selector), ("update", ofDocument m.update)]
  | delete m => .object [("single", .bool m.single), ("selector", ofDocument m.selector)]
  | getMore m =>
    .object [("return", ofInt32 m.numberToReturn), ("cursor_id", ofInt64 m.cursorId)]
  | killCursors ids => .object [("cursor_ids", .array (ids.map ofInt64))]

def toTagged (m : Request) : Json :=
  .object [("kind", .string m.opcode.name), ("ns", ofOption Namespace.toTagged m.space?),
    ("body", m.taggedBody)]

/-- A request by its kind and its fields. A command is a query that is given by its database. -/
def ofTagged? (j : Json) : Option Request := do
  let space := (j.get? "ns").bind Namespace.ofTagged?
  let int (key : String) := j.orElse key int32? 0
  match ← (j.get? "kind").bind Json.string? with
  | "query" =>
    return query ⟨← space, ⟨← j.orElse "flags" word? 0⟩, ← int "skip", ← int "return",
      ← documentOrEmpty j "query", ← j.perhaps "projection" document?⟩
  | "command" => return query (.command (← textField? j "database") (← documentOrEmpty j "query"))
  | "insert" =>
    return insert ⟨← space, ← j.isOn "continue_on_error", ← j.list "documents" document?⟩
  | "update" =>
    return update ⟨← space, ← j.isOn "upsert", ← j.isOn "multi", ← documentOrEmpty j "selector",
      ← documentOrEmpty j "update"⟩
  | "delete" => return delete ⟨← space, ← j.isOn "single", ← documentOrEmpty j "selector"⟩
  | "get_more" => return getMore ⟨← space, ← int "return", ← j.orElse "cursor_id" int64? 0⟩
  | "kill_cursors" => return killCursors (← j.list "cursor_ids" int64?)
  | _ => none

end Request

namespace Reply

def taggedFields (r : Reply) : List (String × Json) :=
  [("flags", r.flags.toTagged), ("cursor_id", ofInt64 r.cursorId),
    ("starting_from", ofInt32 r.startingFrom), ("documents", ofDocuments r.documents)]

def ofTagged? (j : Json) : Option Reply := do
  match j.field? "single", j.field? "failure" with
  | some d, _ => return single (← document? d)
  | none, some d => return failure (← document? d)
  | none, none =>
    return ⟨⟨← j.orElse "flags" word? 0⟩, ← j.orElse "cursor_id" int64? 0,
      ← j.orElse "starting_from" int32? 0, ← j.list "documents" document?⟩

end Reply

end DocumentServer
