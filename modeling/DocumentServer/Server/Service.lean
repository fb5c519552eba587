import DocumentServer.Command.Registry
import DocumentServer.Message.Frame
import DocumentServer.Metrics.Basic
import DocumentServer.Processor.Basic

namespace DocumentServer

/-- What stays the same as requests are served. -/
structure Service (α ρ π : Type) where
  registry : Registry α ρ
  processor : Processor α ρ π
  strategy : Strategy
  /-- The time in seconds that a stopwatch shows when a frame is done. -/
  seconds : Frame → Double := fun _ => .zero

/-- What changes as requests are served. -/
structure ServiceState (π : Type) where
  pool : Pool
  /-- The id of the next reply; it starts again from the least one after the greatest. -/
  nextReplyId : Int32
  metrics : Option Metrics
  processor : π

namespace ServiceState

variable {π : Type}

def start (pool : Pool) (metrics : Option Metrics) (processor : π) : ServiceState π :=
  ⟨pool, 1, metrics, processor⟩

def measure (f : Metrics → Metrics) (s : ServiceState π) : ServiceState π :=
  { s with metrics := s.metrics.map f }

def countError (e : WireError) (s : ServiceState π) : ServiceState π :=
  s.measure (.countError e.code)

def updateGauges (s : ServiceState π) : ServiceState π := s.measure (.setInterned s.pool.size)

end ServiceState

namespace Service

variable {α ρ π : Type} (v : Service α ρ π)

abbrev Step (π β : Type) : Type := Connection → ServiceState π → β × Connection × ServiceState π

def lift {β : Type} (step : Operation π β) : Step π (Except WireError β) := fun c s =>
  match step c s.processor with
  | (r, c, p) => (r, c, { s with processor := p })

def runCommand (x : Context) (d : Document String) :
    Step π (Except WireError (Document String)) := fun c s =>
  match v.registry.resolve d with
  | .error e => (.error e, c, s)
  | .ok (command, calledBy) =>
    let s := s.measure (.countCommand command.name)
    if command.adminOnly && !x.isAdmin then (.error command.notAdmin, c, s)
    else
      match command.argument d calledBy with
      | .error e => (.error e, c, s)
      | .ok a =>
        match lift (v.processor.execute command x a) c s with
        | (.error e, c, s) => (.error e, c, s)
        | (.ok r, c, s) => ((command.result r).map Document.withOk, c, s)

def executeCommand (x : Context) (d : Document String) : Step π (Document String) := fun c s =>
  match v.runCommand x d c s with
  | (.ok r, c, s) => (r, c, s)
  | (.error e, c, s) => (e.replyDocument, c, s.countError e)

/-- What becomes of a failed request: a reply if its opcode gets one, and else the processor is told
of it. -/
def fail (op : Opcode) (e : WireError) : Step π (Option Reply) := fun c s =>
  let s := s.countError e
  if op.canReply then (some (.failure e.replyDocument), c, s)
  else
    match v.processor.recordError e c s.processor with
    | (c, p) => (none, c, { s with processor := p })

def answer (op : Opcode) (step : Operation π Reply) : Step π (Option Reply) := fun c s =>
  match lift step c s with
  | (.ok r, c, s) => (some r, c, s)
  | (.error e, c, s) => v.fail op e c s

def carryOut (op : Opcode) (step : Operation π Unit) : Step π (Option Reply) := fun c s =>
  match lift step c s with
  | (.ok (), c, s) => (none, c.clearLastError, s)
  | (.error e, c, s) => v.fail op e c s

def context (c : Connection) (n : Namespace) (slaveOk : Bool) : Context :=
  (Context.new n.database c.address).withSlaveOk slaveOk

/-- Serves a request. A cursor may be read on at any member, so getting more of it counts as
accepting an answer of a secondary. -/
def handle (m : Request) : Step π (Option Reply) := fun c s =>
  match m with
  | .query q =>
    let x := context c q.space q.options.slaveOk
    if q.isCommand then
      match v.executeCommand x q.query c s with
      | (d, c, s) => (some (.single d), c, s)
    else v.answer .query (v.processor.query x q) c s
  | .getMore q => v.answer .getMore (v.processor.getMore (context c q.space true) q) c s
  | .insert q => v.carryOut .insert (v.processor.insert (context c q.space false) q) c s
  | .update q => v.carryOut .update (v.processor.update (context c q.space false) q) c s
  | .delete q => v.carryOut .delete (v.processor.delete (context c q.space false) q) c s
  | .killCursors ids => v.carryOut .killCursors (v.processor.killCursors ids) c s

/-- Reads the request of a frame and serves it. What its texts held in the pool is let go when it is
served. -/
def respond (f : Frame) : Step π (Except MessageError (Option Reply)) := fun c s =>
  match Request.parse v.strategy f s.pool with
  | (.ok m, pool) =>
    match v.handle m c { s with pool := pool } with
    | (r, c, t) => (.ok r, c, { t with pool := s.pool.restore t.pool })
  | (.error e, pool) =>
    let s := { s with pool := pool }
    if e.isFatal then (.error e, c, s)
    else
      match v.fail f.opcode e.toWire c (s.measure .countDecodeFailure) with
      | (r, c, s) => (.ok r, c, s)

def notEncoded (e : MessageError) : WireError :=
  ⟨.internalError, s!"failed to encode reply: {e.message}"⟩

/-- The message of a reply, under the next id. If the reply has none, the client is told why, under
the same id. -/
def encodeReply (r : Reply) (responseTo : Int32) (s : ServiceState π) :
    Except (Stop MessageError) ByteArray × ServiceState π :=
  let id := s.nextReplyId
  let s := { s with nextReplyId := id + 1 }
  match r.encode id responseTo with
  | .ok b => (.ok b, s)
  | .error .overflow => (.error .overflow, s)
  | .error (.error e) =>
    ((Reply.failure (notEncoded e).replyDocument).encode id responseTo, s.countError (notEncoded e))

/-- Serves a frame and gives the encoded reply, if there is one. An error means that the connection
has to be closed. -/
def dispatch (f : Frame) : Step π (Except (Stop MessageError) (Option ByteArray)) := fun c s =>
  let s := s.measure (.countRequest f.opcode (v.seconds f))
  match v.respond f c.recordRequest s with
  | (.error e, c, s) => (.error (.error e), c, s)
  | (.ok none, c, s) => (.ok none, c, s)
  | (.ok (some r), c, s) =>
    match encodeReply r f.requestId s with
    | (b, s) => (b.map some, c, s)

end Service

end DocumentServer
