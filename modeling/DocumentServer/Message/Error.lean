import DocumentServer.Codec.Error
import DocumentServer.Message.ErrorCode
import DocumentServer.Message.Opcode

namespace DocumentServer

def defaultPort : Nat := 27017

def maxMessageSize : Nat := 48000000

def headerSize : Nat := 16

inductive BodyFault where
  | truncated (offset : Nat)
  | unterminatedNamespace
  | namespaceNotUtf8
  | nothingToInsert
  | negativeCursorCount (count : Int)
  | negativeDocumentCount (count : Int)
  | replyAsRequest
  | trailing (count : Nat)
  | other (reason : String)
  deriving DecidableEq

def BodyFault.message : BodyFault → String
  | truncated offset => s!"truncated at offset {offset}"
  | unterminatedNamespace => "unterminated namespace"
  | namespaceNotUtf8 => "namespace is not valid UTF-8"
  | nothingToInsert => "no documents to insert"
  | negativeCursorCount count => s!"negative cursor count {count}"
  | negativeDocumentCount count => s!"negative document count {count}"
  | replyAsRequest => "replies are not requests"
  | trailing count => s!"{count} trailing bytes"
  | other reason => reason

inductive MessageError where
  | invalidLength (length : Int)
  | unknownOpcode (number : Int)
  | tooLarge (size : Nat)
  | malformedBody (op : Opcode) (fault : BodyFault)
  | invalidNamespace (text : String)
  | document (error : DecodeError)
  | encode (error : EncodeError)
  | io (text : String)
  deriving DecidableEq

namespace MessageError

def message : MessageError → String
  | invalidLength length => s!"invalid message length: {length}"
  | unknownOpcode number => s!"unknown opcode: {number}"
  | tooLarge size => s!"message too large: {size} bytes (max {maxMessageSize})"
  | malformedBody op fault => s!"malformed {op.name} body: {fault.message}"
  | invalidNamespace text => s!"invalid namespace: {Text.Quoted.ofString text}"
  | document error => s!"document error: {error.message}"
  | encode error => s!"encode error: {error.message}"
  | io text => s!"I/O error: {text}"

/-- Whether the stream that an error came from cannot be read on. -/
def isFatal : MessageError → Bool
  | invalidLength _ | unknownOpcode _ | io _ => true
  | _ => false

def toWire (e : MessageError) : WireError :=
  let code := match e with
    | invalidNamespace _ => ErrorCode.invalidNamespace
    | document _ | malformedBody _ _ => .failedToParse
    | _ => .internalError
  ⟨code, e.message⟩

end MessageError

end DocumentServer
