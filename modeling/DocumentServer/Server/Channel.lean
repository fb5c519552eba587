import DocumentServer.Processor.Basic
import DocumentServer.Server.Error

namespace DocumentServer

structure Channel where
  address : SocketAddress
  connection : Option Connection

namespace Channel

variable {α ρ π : Type}

def closed (address : SocketAddress) : Channel := ⟨address, none⟩

def isActive (h : Channel) : Bool := h.connection.isSome

/-- Opens a connection through the processor, under an id that was never used. -/
def activate (p : Processor α ρ π) (id : Nat) (h : Channel) (s : π) :
    Except ServerError Connection × Channel × π :=
  match h.connection with
  | some _ => (.error .connectionAlreadyActive, h, s)
  | none =>
    let (c, s) := p.openConnection (.fresh id h.address) s
    let c := { c with id }
    (.ok c, { h with connection := some c }, s)

def deactivate (p : Processor α ρ π) (h : Channel) (s : π) : Channel × π :=
  match h.connection with
  | some c => ({ h with connection := none }, p.closeConnection c s)
  | none => (h, s)

end Channel

end DocumentServer
