import DocumentServer.Document.Builder
import DocumentServer.Message.ErrorCode

namespace DocumentServer

def okField : String := "ok"

def WireError.replyDocument (e : WireError) : Document String :=
  [("code", .scalar (.int32 (Int32.ofInt e.code.number))), ("errmsg", .scalar (.string e.message)),
    (okField, .scalar (.double .zero))]

namespace Document

/-- A result with the mark of success at its end, unless it has a mark of its own. -/
def withOk (d : Document String) : Document String :=
  if contains d okField then d
  else ((Builder.ofDocument d).insert okField (.scalar (.double .one))).build

/-- Whether a reply reports success: its mark is a number equal to one. -/
def isOk (d : Document String) : Bool :=
  match get? d okField with
  | some v => match v.toDouble with
    | .ok x => x = .one
    | .error _ => false
  | none => false

end Document

end DocumentServer
