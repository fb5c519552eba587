import DocumentServer.Text.Hex
import DocumentServer.Text.Quoted

namespace DocumentServer

def maxDocumentSize : Nat := 16 * 1024 * 1024

def minDocumentSize : Nat := 5

def maxNesting : Nat := 100

def minCodeWithScopeSize : Nat := 14

inductive PayloadFault where
  | stringNotTerminated
  | notBoolean (byte : UInt8)
  deriving DecidableEq

def PayloadFault.message : PayloadFault → String
  | stringNotTerminated => "string is not NUL-terminated"
  | notBoolean x => s!"boolean byte must be 0 or 1, got {x}"

/-- Why bytes are not a document. Offsets count from the start of the document. -/
inductive DecodeError where
  | truncatedInput (needed available : Nat)
  | lengthMismatch (declared consumed : Nat)
  | invalidLength (offset : Nat) (length : Int)
  | invalidTag (offset : Nat) (tag : UInt8)
  | invalidUtf8 (offset : Nat)
  | unterminated (offset : Nat)
  | invalidPayload (offset : Nat) (fault : PayloadFault)
  | nestingTooDeep (limit : Nat)
  deriving DecidableEq

def DecodeError.message : DecodeError → String
  | truncatedInput needed available =>
    s!"truncated input: document declares {needed} bytes but only {available} are available"
  | lengthMismatch declared consumed =>
    s!"length mismatch: document declares {declared} bytes but parsing consumed {consumed}"
  | invalidLength offset length => s!"invalid length {length} at offset {offset}"
  | invalidTag offset tag =>
    s!"invalid element type tag 0x{String.ofList (Text.Hex.ofByte tag)} at offset {offset}"
  | invalidUtf8 offset => s!"invalid UTF-8 in string at offset {offset}"
  | unterminated offset => s!"unterminated cstring at offset {offset}"
  | invalidPayload offset fault => s!"invalid value at offset {offset}: {fault.message}"
  | nestingTooDeep limit => s!"document nesting exceeds {limit} levels"

inductive CStringPart where
  | key
  | regexPattern
  | regexOptions
  deriving DecidableEq

def CStringPart.name : CStringPart → String
  | key => "key"
  | regexPattern => "regex pattern"
  | regexOptions => "regex options"

inductive EncodeError where
  | documentTooLarge (size : Nat)
  | interiorNul (part : CStringPart) (text : String)
  deriving DecidableEq

/-- Why writing stops. -/
inductive Stop (ε : Type) where
  | error (e : ε)
  /-- The length of a text does not fit its word together with the zero after the text, so that the
  machine cannot add it up. Nobody gets an error then: the program breaks off. -/
  | overflow
  deriving DecidableEq

def Stop.map {ε δ : Type} (f : ε → δ) : Stop ε → Stop δ
  | error e => error (f e)
  | overflow => overflow

def EncodeError.message : EncodeError → String
  | documentTooLarge size => s!"document too large: {size} bytes (max {maxDocumentSize})"
  | interiorNul part text =>
    s!"{part.name} contains an interior NUL byte: {Text.Quoted.ofString text}"

end DocumentServer
