import DocumentServer.Codec.Error
import DocumentServer.Command.Registry
import DocumentServer.Message.Error

namespace DocumentServer

def fieldOrWire {α : Type} (r : Except FieldError α) : Except WireError α :=
  r.mapError WireError.ofField

inductive IndexSelector where
  /-- All but the one that every collection has. -/
  | all
  | name (text : String)
  | pattern (keys : Document String)

def IndexSelector.ofValue : Value String → Except WireError IndexSelector
  | .scalar (.string "*") => .ok .all
  | .scalar (.string s) => .ok (.name s)
  | .document d => .ok (.pattern d)
  | v => .error (.ofField (.typeMismatch "index" .stringOrDocument v.tag))

structure DropIndexes where
  collection : String
  index : IndexSelector

/-- The collection stands behind the name that the command was called by. -/
def DropIndexes.ofDocument (d : Document String) (calledBy : String) :
    Except WireError DropIndexes := do
  let collection ← fieldOrWire (Document.stringField d calledBy)
  if collection = "" then .error ⟨.invalidNamespace, "collection name must not be empty"⟩
  else
    let v ← fieldOrWire (Document.field d "index")
    return ⟨collection, ← IndexSelector.ofValue v⟩

structure LastErrorOptions where
  /-- The write concern, as it was given. -/
  concern : Option (Value String)
  timeout : Int32
  fsync : Bool
  journal : Bool

def LastErrorOptions.ofDocument (d : Document String) : Except WireError LastErrorOptions := do
  let timeout ← fieldOrWire (Document.orMissing Document.int32Field 0 d "wtimeout")
  return ⟨Document.get? d "w", timeout, Document.isSet d "fsync", Document.isSet d "j"⟩

inductive Argument (ε : Type) where
  | none
  | dropIndexes (request : DropIndexes)
  | lastError (options : LastErrorOptions)
  | other (argument : ε)

structure Role where
  isMaster : Bool
  secondary : Bool
  maxDocumentSize : Int32
  maxMessageSize : Int32
  maxBatchSize : Int32
  localTime : Int64
  minWireVersion : Int32
  maxWireVersion : Int32

namespace Role

def standalone (now : Int64) : Role :=
  { isMaster := true
    secondary := false
    maxDocumentSize := Int32.ofNat DocumentServer.maxDocumentSize
    maxMessageSize := Int32.ofNat DocumentServer.maxMessageSize
    maxBatchSize := 1000
    localTime := now
    minWireVersion := 0
    maxWireVersion := 2 }

def document (r : Role) : Document String :=
  [("ismaster", .scalar (.boolean r.isMaster)), ("secondary", .scalar (.boolean r.secondary)),
    ("maxBsonObjectSize", .scalar (.int32 r.maxDocumentSize)),
    ("maxMessageSizeBytes", .scalar (.int32 r.maxMessageSize)),
    ("maxWriteBatchSize", .scalar (.int32 r.maxBatchSize)),
    ("localTime", .scalar (.datetime r.localTime)),
    ("maxWireVersion", .scalar (.int32 r.maxWireVersion)),
    ("minWireVersion", .scalar (.int32 r.minWireVersion))]

end Role

structure Build where
  version : String
  versionNumbers : List Int32
  revision : String
  bits : Int32
  debug : Bool
  maxDocumentSize : Int32

namespace Build

def current : Build :=
  { version := "0.1.0"
    versionNumbers := [0, 1, 0, 0]
    revision := "unknown"
    bits := 64
    debug := true
    maxDocumentSize := Int32.ofNat DocumentServer.maxDocumentSize }

def document (b : Build) : Document String :=
  [("version", .scalar (.string b.version)), ("gitVersion", .scalar (.string b.revision)),
    ("versionArray", .array (b.versionNumbers.map fun n => .scalar (.int32 n))),
    ("bits", .scalar (.int32 b.bits)), ("debug", .scalar (.boolean b.debug)),
    ("maxBsonObjectSize", .scalar (.int32 b.maxDocumentSize))]

end Build

structure LastOutcome where
  affected : Int64
  error : Option WireError

def LastOutcome.document (o : LastOutcome) : Document String :=
  ("n", .scalar (.int64 o.affected)) ::
    match o.error with
    | some e =>
      [("err", .scalar (.string e.message)),
        ("code", .scalar (.int32 (Int32.ofInt e.code.number)))]
    | none => [("err", .scalar .null)]

inductive Outcome (δ : Type) where
  | done
  | role (role : Role)
  | build (build : Build)
  | nonce (digits : String)
  | indexesWere (count : Int32)
  | lastOutcome (outcome : LastOutcome)
  | other (outcome : δ)

namespace Builtin

variable {ε δ : Type}

def plain (name : String) (aliases : List String) (adminOnly : Bool)
    (document? : Outcome δ → Option (Document String)) : Command (Argument ε) (Outcome δ) :=
  ⟨name, aliases, adminOnly, fun _ _ => .ok .none, fun r => (document? r).map .ok⟩

def ping : Command (Argument ε) (Outcome δ) :=
  plain "ping" [] false fun
    | .done => some []
    | _ => none

def isMaster : Command (Argument ε) (Outcome δ) :=
  plain "isMaster" ["ismaster"] false fun
    | .role r => some r.document
    | _ => none

def buildInfo : Command (Argument ε) (Outcome δ) :=
  plain "buildInfo" ["buildinfo"] false fun
    | .build b => some b.document
    | _ => none

def getNonce : Command (Argument ε) (Outcome δ) :=
  plain "getnonce" [] true fun
    | .nonce digits => some [("nonce", .scalar (.string digits))]
    | _ => none

def dropIndexes : Command (Argument ε) (Outcome δ) :=
  { name := "dropIndexes"
    aliases := ["deleteIndexes"]
    adminOnly := false
    argument := fun d calledBy => (DropIndexes.ofDocument d calledBy).map .dropIndexes
    document? := fun
      | .indexesWere n => some (.ok [("nIndexesWas", .scalar (.int32 n))])
      | _ => none }

def getLastError : Command (Argument ε) (Outcome δ) :=
  { name := "getLastError"
    aliases := ["getlasterror"]
    adminOnly := false
    argument := fun d _ => (LastErrorOptions.ofDocument d).map .lastError
    document? := fun
      | .lastOutcome o => some (.ok o.document)
      | _ => none }

def all : List (Command (Argument ε) (Outcome δ)) :=
  [ping, isMaster, buildInfo, getNonce, dropIndexes, getLastError]

def registry : Registry (Argument ε) (Outcome δ) := (Registry.empty.registerAll all).2

end Builtin

end DocumentServer
