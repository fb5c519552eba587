import DocumentServer.Address.Basic
import DocumentServer.Message.ErrorCode

namespace DocumentServer

/-- What is kept for one client. -/
structure Connection where
  id : Nat
  address : SocketAddress
  requestCount : Nat
  /-- The failure of the latest request that got no reply, unless a later one succeeded. -/
  lastError : Option WireError
  deriving DecidableEq

namespace Connection

def fresh (id : Nat) (address : SocketAddress) : Connection := ⟨id, address, 0, none⟩

def recordRequest (c : Connection) : Connection := { c with requestCount := c.requestCount + 1 }

def setLastError (c : Connection) (e : WireError) : Connection := { c with lastError := some e }

def clearLastError (c : Connection) : Connection := { c with lastError := none }

end Connection

end DocumentServer
