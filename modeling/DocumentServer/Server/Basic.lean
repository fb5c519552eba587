import DocumentServer.Config.Basic
import DocumentServer.Server.Channel
import DocumentServer.Server.Link

namespace DocumentServer

structure ServerSettings where
  address : SocketAddress
  idleSeconds : Nat
  maxConnections : Nat
  metricsEnabled : Bool

namespace ServerSettings

def ofNetwork (n : NetworkConfig) : ServerSettings :=
  ⟨n.address, n.idleSeconds, n.maxConnections, false⟩

def describeSeconds (n : Nat) : String := if n = 0 then "0ns" else s!"{n}s"

def describe (t : ServerSettings) : String :=
  s!"ServerConfig \x7b bind_addr: {t.address.display}, "
    ++ s!"idle_timeout: {describeSeconds t.idleSeconds}, "
    ++ s!"max_connections: {t.maxConnections}, metrics_enabled: {t.metricsEnabled} \x7d"

end ServerSettings

structure ServerStats where
  connections : Nat
  active : Nat
  frames : Nat
  errors : Nat
  deriving DecidableEq

def ServerStats.none : ServerStats := ⟨0, 0, 0, 0⟩

structure Task where
  channel : Channel
  stream : FrameStream

structure Server (π : Type) where
  limit : Nat
  state : ServiceState π
  stats : ServerStats
  /-- Peers that are taken and whose tasks have not begun, by task. -/
  waiting : List (Nat × SocketAddress)
  /-- Tasks that are under way. -/
  tasks : List (Nat × Task)
  /-- The connections that are open, one of each id. -/
  connections : List Connection
  nextTask : Nat

namespace Server

variable {α ρ π : Type}

def start (limit : Nat) (state : ServiceState π) : Server π :=
  ⟨limit, state, .none, [], [], [], 0⟩

def measure (f : Metrics → Metrics) (w : Server π) : Server π :=
  { w with state := w.state.measure f }

/-- Takes a peer, unless there are as many as the limit allows. Gives the number of its task. -/
def accept (address : SocketAddress) (w : Server π) : Option Nat × Server π :=
  if w.limit ≤ w.stats.active then (none, w)
  else
    let w := w.measure Metrics.openConnection
    (some w.nextTask,
      { w with
        stats.connections := w.stats.connections + 1
        stats.active := w.stats.active + 1
        waiting := w.waiting ++ [(w.nextTask, address)]
        nextTask := w.nextTask + 1 })

def register (c : Connection) (w : Server π) : Server π :=
  { w with connections := (w.connections.filter fun d => d.id ≠ c.id) ++ [c] }

def unregister (c : Connection) (w : Server π) : Server π :=
  { w with connections := w.connections.filter fun d => d.id ≠ c.id }

inductive Ending where
  /-- The peer closed its side, or was idle for too long. -/
  | closed
  | failed (error : ServerError)
  deriving DecidableEq

def Ending.isError : Ending → Bool
  | closed | failed .shuttingDown => false
  | failed _ => true

/-- Ends a task that is under way: its connection is taken off the register, closed and counted
off. -/
def finish (v : Service α ρ π) (task : Nat) (ending : Ending) (w : Server π) : Server π :=
  match w.tasks.lookup task with
  | none => w
  | some t =>
    let w := t.channel.connection.elim w fun c => w.unregister c
    match t.channel.deactivate v.processor w.state.processor with
    | (_, p) =>
      let w := { w with
        state.processor := p
        tasks := w.tasks.filter fun u => u.1 ≠ task
        stats.errors := w.stats.errors + (if ending.isError then 1 else 0)
        stats.active := w.stats.active - 1 }
      { w with state := (w.state.measure Metrics.closeConnection).updateGauges }

/-- Begins the task of a peer that waits: its connection is opened, under the number of the task,
and registered. -/
def begin (v : Service α ρ π) (task : Nat) (w : Server π) : Server π :=
  match w.waiting.lookup task with
  | none => w
  | some address =>
    match (Channel.closed address).activate v.processor task w.state.processor with
    | (opened, channel, p) =>
      let w : Server π := { w with
        state.processor := p
        waiting := w.waiting.filter fun t => t.1 ≠ task
        tasks := w.tasks ++ [(task, ⟨channel, .empty⟩)] }
      match opened with
      | .ok c => w.register c
      | .error e => w.finish v task (.failed e)

def putLink (t : Task) (k : Link) : Task :=
  ⟨{ t.channel with connection := some k.connection }, k.stream⟩

def putRun (w : Server π) (task : Nat) (t : Task) (r : Link.Run π) : Server π :=
  { w with
    state := r.state
    stats.frames := w.stats.frames + r.frames
    tasks := w.tasks.map fun x => if x.1 = task then (task, putLink t r.link) else x
    connections := w.connections.map fun d =>
      if d.id = r.link.connection.id then r.link.connection else d }

/-- A task that breaks off is gone without having ended: its connection stays registered and is not
counted off. -/
def abandon (task : Nat) (w : Server π) : Server π :=
  { w with tasks := w.tasks.filter fun t => t.1 ≠ task }

/-- The server after a run of the loop of a task. What the loop stopped at, if it stopped, is what
becomes of the task. -/
def conclude (v : Service α ρ π) (task : Nat) (t : Task) (r : Link.Run π) (w : Server π) :
    Server π :=
  match r.error with
  | none => w.putRun task t r
  | some (.error e) => (w.putRun task t r).finish v task (.failed (.message e))
  | some .overflow => (w.putRun task t r).abandon task

def receive (v : Service α ρ π) (task : Nat) (chunk : ByteArray) (w : Server π) :
    List ByteArray × Server π :=
  match w.tasks.lookup task with
  | none => ([], w)
  | some t =>
    match t.channel.connection with
    | none => ([], w)
    | some c =>
      let r := Link.receive v chunk ⟨c, t.stream⟩ w.state
      (r.replies, w.conclude v task t r)

def shutDown (v : Service α ρ π) (w : Server π) : Server π :=
  let w := w.waiting.foldl (fun w t => w.begin v t.1) w
  w.tasks.foldl (fun w t => w.finish v t.1 (.failed .shuttingDown)) w

end Server

end DocumentServer
