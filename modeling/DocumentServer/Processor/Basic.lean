import DocumentServer.Command.Basic
import DocumentServer.Connection.Basic
import DocumentServer.Message.Reply

namespace DocumentServer

/-- What a request is about, apart from its body. Times are counted on a clock of the caller. -/
structure Context where
  database : String
  client : SocketAddress
  /-- Whether the client accepts an answer of a secondary. -/
  slaveOk : Bool
  /-- The time after which nobody waits for the answer. -/
  deadline : Option Nat
  deriving DecidableEq

namespace Context

def new (database : String) (client : SocketAddress) : Context := ⟨database, client, false, none⟩

def withSlaveOk (c : Context) (slaveOk : Bool) : Context := { c with slaveOk }

def withDeadline (c : Context) (deadline : Nat) : Context := { c with deadline := some deadline }

def isAdmin (c : Context) : Bool := c.database = adminDatabase

def isExpired (c : Context) (now : Nat) : Bool :=
  match c.deadline with
  | some d => d ≤ now
  | none => false

end Context

/-- A step of a processor: a result or an error, the connection and the state after it. -/
abbrev Operation (π α : Type) : Type := Connection → π → Except WireError α × Connection × π

def Operation.refuse {π α : Type} (e : WireError) : Operation π α := fun c s => (.error e, c, s)

def Operation.unsupported {π α : Type} (what : String) : Operation π α :=
  .refuse ⟨.commandNotSupported, s!"{what} is not supported"⟩

def Operation.unsupportedOn {π α : Type} (what : String) (n : Namespace) : Operation π α :=
  .unsupported s!"{what} on {n.display}"

structure Processor (α ρ π : Type) where
  /-- Runs a command that is resolved and authorized, on its argument. -/
  execute : Command α ρ → Context → α → Operation π ρ
  query : Context → Query → Operation π Reply := fun _ m => .unsupportedOn "query" m.space
  getMore : Context → GetMore → Operation π Reply := fun _ m => .unsupportedOn "getMore" m.space
  insert : Context → Insert → Operation π Unit := fun _ m => .unsupportedOn "insert" m.space
  update : Context → Update → Operation π Unit := fun _ m => .unsupportedOn "update" m.space
  delete : Context → Delete → Operation π Unit := fun _ m => .unsupportedOn "delete" m.space
  killCursors : List Int64 → Operation π Unit := fun _ => .unsupported "killCursors"
  /-- Takes the failure of a request that gets no reply. -/
  recordError : WireError → Connection → π → Connection × π := fun e c s => (c.setLastError e, s)
  openConnection : Connection → π → Connection × π := fun c s => (c, s)
  closeConnection : Connection → π → π := fun _ s => s

/-- What runs the commands of some names, each on its own kind of argument. -/
abbrev Executors (α ρ π : Type) : Type := List (String × (α → Option (Context → Operation π ρ)))

namespace Executors

variable {α ρ π : Type}

def bind (x : Executors α ρ π) (name : String) (run : α → Option (Context → Operation π ρ)) :
    Executors α ρ π :=
  (name, run) :: x

def execute (x : Executors α ρ π) (c : Command α ρ) (context : Context) (a : α) :
    Operation π ρ :=
  match x.lookup c.name with
  | none => .refuse c.unsupported
  | some run =>
    match run a with
    | none => .refuse c.wrongArgument
    | some step => step context

end Executors

end DocumentServer
