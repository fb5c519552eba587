import DocumentServer.Config.Error
import DocumentServer.Message.Error

namespace DocumentServer

inductive ServerError where
  | io (text : String)
  | message (error : MessageError)
  | config (error : ConfigError)
  | metrics (text : String)
  | connectionAlreadyActive
  | duplicateCommand (name : String)
  | shuttingDown
  deriving DecidableEq

namespace ServerError

def display : ServerError → String
  | io text => s!"I/O error: {text}"
  | message error => s!"protocol error: {error.message}"
  | config error => s!"configuration error: {error.message}"
  | metrics text => s!"metrics error: {text}"
  | connectionAlreadyActive => "channel already has an active connection"
  | duplicateCommand name => s!"command {name} is already registered"
  | shuttingDown => "server shutting down"

def code : ServerError → ErrorCode
  | message error => error.toWire.code
  | config _ => .invalidOptions
  | duplicateCommand _ => .illegalOperation
  | io _ | metrics _ | connectionAlreadyActive | shuttingDown => .internalError

/-- Whether the connection that an error came from has to be closed. -/
def isFatal : ServerError → Bool
  | message error => error.isFatal
  | _ => true

def toWire (e : ServerError) : WireError := ⟨e.code, e.display⟩

end ServerError

end DocumentServer
