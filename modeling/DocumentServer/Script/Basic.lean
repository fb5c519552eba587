import DocumentServer.Command.Builtin
import DocumentServer.Processor.Standalone
import DocumentServer.Value.Tagged

namespace DocumentServer

inductive FieldReader where
  | value
  | string
  | stringOr (default : String)
  | int32
  | int32Or (default : Int32)
  | int64
  | int64Or (default : Int64)
  | double
  | numeric
  | boolean
  | booleanOr (default : Bool)
  | flag (default : Bool)
  | isSet
  | document
  | array
  | objectId
  | datetime
  | timestamp
  deriving DecidableEq

def FieldReader.read (r : FieldReader) (d : Document String) (key : String) :
    Except FieldError Json :=
  open Document Tagged in
  let shown {β : Type} (f : β → Json) (x : Except FieldError β) := x.map f
  match r with
  | value => shown ofValue (field d key)
  | string => shown .string (stringField d key)
  | stringOr a => shown .string (orMissing stringField a d key)
  | int32 => shown (fun n => .integer n.toInt) (int32Field d key)
  | int32Or a => shown (fun n => .integer n.toInt) (orMissing int32Field a d key)
  | int64 => shown ofInt64 (int64Field d key)
  | int64Or a => shown ofInt64 (orMissing int64Field a d key)
  | double => shown ofDouble (doubleField d key)
  | numeric => shown ofValue (numericField d key)
  | boolean => shown .bool (booleanField d key)
  | booleanOr a => shown .bool (orMissing booleanField a d key)
  | flag a => shown .bool (flagField a d key)
  | isSet => .ok (.bool (Document.isSet d key))
  | document => shown ofDocument (documentField d key)
  | array => shown (fun vs => .array (ofItems vs)) (arrayField d key)
  | objectId => shown (fun o => .string o.toHex) (objectIdField d key)
  | datetime => shown ofInt64 (datetimeField d key)
  | timestamp => shown (fun t => .string (toString t.raw.toNat)) (timestampField d key)

abbrev ReadArgument : Type := Argument (List Json)

abbrev GivenOutcome : Type := Outcome (Document String)

abbrev GivenStep (β : Type) : Type := Operation Surroundings β

inductive Action where
  | result (document : Document String)
  | failure (error : WireError)
  /-- A document that tells the context and the argument. -/
  | echo
  /-- A result that is none of the command. -/
  | wrongResult
  /-- Nothing, because the argument is none that the action knows. -/
  | wrongArgument

structure ScriptedCommand where
  name : String
  aliases : List String
  adminOnly : Bool
  /-- The fields that the command may have, if that is checked. -/
  allowed : Option (List String)
  /-- The fields to read; the one that names the command is meant where no key is given. -/
  reads : List (FieldReader × Option String)
  /-- Why no result can be written. -/
  unwritable : Option WireError
  action : Option Action

namespace ScriptedCommand

def readArgument (c : ScriptedCommand) (d : Document String) (calledBy : String) :
    Except WireError (List Json) := do
  match c.allowed with
  | some allowed => fieldOrWire (Document.checkFields c.name d allowed)
  | none => pure ()
  c.reads.mapM fun r => fieldOrWire (r.1.read d (r.2.getD calledBy))

def command (c : ScriptedCommand) : Command ReadArgument GivenOutcome :=
  { name := c.name
    aliases := c.aliases
    adminOnly := c.adminOnly
    argument := fun d calledBy => (c.readArgument d calledBy).map .other
    document? := fun
      | .other d => some (match c.unwritable with
        | some e => .error e
        | none => .ok d)
      | _ => none }

/-- The document that tells the context and the argument of a command. -/
def echo (x : Context) (values : List Json) (c : Connection) : Document String :=
  [("db", .scalar (.string x.database)), ("admin", .scalar (.boolean x.isAdmin)),
    ("slaveOk", .scalar (.boolean x.slaveOk)), ("expired", .scalar (.boolean (x.isExpired 0))),
    ("requests", .scalar (.int64 (Int64.ofNat c.requestCount))),
    ("args", .scalar (.string (Json.array values).compact))]

def run (action : Action) (x : Context) (values : List Json) : GivenStep GivenOutcome :=
  match action with
  | .result d => fun c s => (.ok (.other d), c, s)
  | .failure e => .refuse e
  | .echo => fun c s => (.ok (.other (echo x values c)), c, s)
  | .wrongResult | .wrongArgument => fun c s => (.ok .done, c, s)

def executor (action : Action) : ReadArgument → Option (Context → GivenStep GivenOutcome)
  | .other values =>
    match action with
    | .wrongArgument => none
    | action => some fun x => run action x values
  | _ => none

def executors (cs : List ScriptedCommand) : Executors ReadArgument GivenOutcome Surroundings :=
  cs.filterMap fun c => c.action.map fun a => (c.name, executor a)

end ScriptedCommand

inductive ScriptedReply where
  | reply (reply : Reply)
  | failure (error : WireError)
  /-- A document that tells the context and the query. -/
  | echo

def ScriptedReply.step (a : ScriptedReply) (x : Context) (q : Document String) : GivenStep Reply :=
  match a with
  | reply r => fun c s => (.ok r, c, s)
  | failure e => .refuse e
  | echo => fun c s =>
    (.ok (.single [("db", .scalar (.string x.database)), ("slaveOk", .scalar (.boolean x.slaveOk)),
      ("query", .document q)]), c, s)

def scriptedWrite (r : Except WireError Unit) : GivenStep Unit := fun c s => (r, c, s)

/-- What a processor does; what is not given is refused. -/
structure Script where
  commands : List ScriptedCommand
  query : Option ScriptedReply
  getMore : Option ScriptedReply
  insert : Option (Except WireError Unit)
  update : Option (Except WireError Unit)
  delete : Option (Except WireError Unit)
  killCursors : Option (Except WireError Unit)

namespace Script

def bare (t : Script) : Processor ReadArgument GivenOutcome Surroundings :=
  { execute := (ScriptedCommand.executors t.commands).execute }

def processor (t : Script) : Processor ReadArgument GivenOutcome Surroundings :=
  { t.bare with
    query := fun x m => match t.query with
      | some a => a.step x m.query
      | none => t.bare.query x m
    getMore := fun x m => match t.getMore with
      | some a => a.step x []
      | none => t.bare.getMore x m
    insert := fun x m => (t.insert.map scriptedWrite).getD (t.bare.insert x m)
    update := fun x m => (t.update.map scriptedWrite).getD (t.bare.update x m)
    delete := fun x m => (t.delete.map scriptedWrite).getD (t.bare.delete x m)
    killCursors := fun ids => (t.killCursors.map scriptedWrite).getD (t.bare.killCursors ids) }

end Script

end DocumentServer
