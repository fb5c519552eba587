import DocumentServer.Value.Number

namespace DocumentServer

inductive FieldType where
  | string
  | integer
  | long
  | double
  | numeric
  | boolean
  | booleanOrNumeric
  | stringOrDocument
  | document
  | array
  | objectId
  | date
  | timestamp
  deriving DecidableEq

def FieldType.name : FieldType → String
  | string => "string"
  | integer => "integer"
  | long => "long"
  | double => "double"
  | numeric => "numeric"
  | boolean => "boolean"
  | booleanOrNumeric => "boolean or numeric"
  | stringOrDocument => "string or document"
  | document => "document"
  | array => "array"
  | objectId => "objectId"
  | date => "date"
  | timestamp => "timestamp"

inductive FieldError where
  | noSuchKey (key : String)
  | typeMismatch (key : String) (expected : FieldType) (found : Tag)
  | unexpectedField (key object : String)
  deriving DecidableEq

namespace FieldError

def message : FieldError → String
  | noSuchKey key => key
  | typeMismatch key expected found =>
    s!"Expected {expected.name} type for field {key}. Found {found.name}"
  | unexpectedField key object => s!"Unexpected field {key} in {object}"

def key? : FieldError → Option String
  | noSuchKey key | typeMismatch key _ _ => some key
  | unexpectedField _ _ => none

end FieldError

namespace Document

variable {α : Type}

def field (d : Document String) (key : String) : Except FieldError (Value String) :=
  match get? d key with
  | some v => .ok v
  | none => .error (.noSuchKey key)

def fieldAs (expected : FieldType) (view : Value String → Option α) (d : Document String)
    (key : String) : Except FieldError α := do
  let v ← field d key
  match view v with
  | some a => return a
  | none => .error (.typeMismatch key expected v.tag)

def orMissing (read : Document String → String → Except FieldError α) (default : α)
    (d : Document String) (key : String) : Except FieldError α :=
  if contains d key then read d key else .ok default

def stringField : Document String → String → Except FieldError String :=
  fieldAs .string Value.asString?

def int32Field : Document String → String → Except FieldError Int32 :=
  fieldAs .integer fun
    | .scalar (.int32 n) => some n
    | _ => none

def int64Field : Document String → String → Except FieldError Int64 :=
  fieldAs .long fun
    | .scalar (.int64 n) => some n
    | _ => none

def doubleField : Document String → String → Except FieldError Double :=
  fieldAs .double fun
    | .scalar (.double x) => some x
    | _ => none

def numericField : Document String → String → Except FieldError (Value String) :=
  fieldAs .numeric fun v => if v.isNumeric then some v else none

def booleanField : Document String → String → Except FieldError Bool :=
  fieldAs .boolean Value.asBoolean?

def documentField : Document String → String → Except FieldError (Document String) :=
  fieldAs .document Value.asDocument?

def arrayField : Document String → String → Except FieldError (List (Value String)) :=
  fieldAs .array Value.asArray?

def objectIdField : Document String → String → Except FieldError ObjectId :=
  fieldAs .objectId Value.asObjectId?

def datetimeField : Document String → String → Except FieldError Int64 :=
  fieldAs .date fun
    | .scalar (.datetime m) => some m
    | _ => none

def timestampField : Document String → String → Except FieldError Timestamp :=
  fieldAs .timestamp fun
    | .scalar (.timestamp t) => some t
    | _ => none

/-- A flag given as a boolean or as a number, of which the integer part is compared with zero. -/
def flagField (default : Bool) : Document String → String → Except FieldError Bool :=
  orMissing (fieldAs .booleanOrNumeric fun v =>
    match v.truncatedInt64 with
    | .ok n => some (n ≠ 0)
    | .error _ => v.asBoolean?) default

/-- Whether a field counts as set: a missing field, zero, false and undefined do not. -/
def isSet (d : Document String) (key : String) : Bool :=
  match get? d key with
  | none => false
  | some (.scalar (.int32 n)) => n ≠ 0
  | some (.scalar (.int64 n)) => n ≠ 0
  | some (.scalar (.double x)) => !x.isZero
  | some (.scalar (.boolean b)) => b
  | some (.scalar .undefined) => false
  | some _ => true

def checkFields (object : String) (d : Document String) (allowed : List String) :
    Except FieldError Unit :=
  match (keys d).find? fun key => !allowed.contains key with
  | some key => .error (.unexpectedField key object)
  | none => .ok ()

end Document

end DocumentServer
