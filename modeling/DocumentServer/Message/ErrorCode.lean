import DocumentServer.Value.Field

namespace DocumentServer

inductive ErrorCode where
  | internalError
  | badValue
  | noSuchKey
  | unknownError
  | failedToParse
  | unauthorized
  | typeMismatch
  | illegalOperation
  | namespaceNotFound
  | cursorNotFound
  | commandNotFound
  | invalidOptions
  | invalidNamespace
  | nodeNotFound
  | operationFailed
  | cannotSatisfyWriteConcern
  | commandNotSupported
  | notMaster
  | notMasterNoSlaveOk
  deriving DecidableEq, Inhabited

namespace ErrorCode

def all : List ErrorCode :=
  [internalError, badValue, noSuchKey, unknownError, failedToParse, unauthorized, typeMismatch,
    illegalOperation, namespaceNotFound, cursorNotFound, commandNotFound, invalidOptions,
    invalidNamespace, nodeNotFound, operationFailed, cannotSatisfyWriteConcern,
    commandNotSupported, notMaster, notMasterNoSlaveOk]

def number : ErrorCode → Int
  | internalError => 1
  | badValue => 2
  | noSuchKey => 4
  | unknownError => 8
  | failedToParse => 9
  | unauthorized => 13
  | typeMismatch => 14
  | illegalOperation => 20
  | namespaceNotFound => 26
  | cursorNotFound => 43
  | commandNotFound => 59
  | invalidOptions => 72
  | invalidNamespace => 73
  | nodeNotFound => 74
  | operationFailed => 96
  | cannotSatisfyWriteConcern => 100
  | commandNotSupported => 115
  | notMaster => 10107
  | notMasterNoSlaveOk => 13435

def ofNumber? (n : Int) : Option ErrorCode := all.find? fun c => c.number = n

def name : ErrorCode → String
  | internalError => "InternalError"
  | badValue => "BadValue"
  | noSuchKey => "NoSuchKey"
  | unknownError => "UnknownError"
  | failedToParse => "FailedToParse"
  | unauthorized => "Unauthorized"
  | typeMismatch => "TypeMismatch"
  | illegalOperation => "IllegalOperation"
  | namespaceNotFound => "NamespaceNotFound"
  | cursorNotFound => "CursorNotFound"
  | commandNotFound => "CommandNotFound"
  | invalidOptions => "InvalidOptions"
  | invalidNamespace => "InvalidNamespace"
  | nodeNotFound => "NodeNotFound"
  | operationFailed => "OperationFailed"
  | cannotSatisfyWriteConcern => "CannotSatisfyWriteConcern"
  | commandNotSupported => "CommandNotSupported"
  | notMaster => "NotMaster"
  | notMasterNoSlaveOk => "NotMasterNoSlaveOk"

theorem ofNumber?_number (c : ErrorCode) : ofNumber? c.number = some c := by
  cases c <;> rfl

end ErrorCode

/-- An error as a client is told of it. -/
structure WireError where
  code : ErrorCode
  message : String
  deriving DecidableEq

namespace WireError

def display (e : WireError) : String := s!"{e.code.name}: {e.message}"

def ofField (e : FieldError) : WireError :=
  let code := match e with
    | .noSuchKey _ => ErrorCode.noSuchKey
    | .typeMismatch _ _ _ => .typeMismatch
    | .unexpectedField _ _ => .badValue
  ⟨code, e.message⟩

end WireError

end DocumentServer
