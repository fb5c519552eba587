import DocumentServer.Config.Options
import DocumentServer.Metrics.Http
import DocumentServer.Processor.Standalone
import DocumentServer.Server.Basic
import Std.Async.Signal
import Std.Async.TCP
import Std.Async.Timer

namespace DocumentServer

open Std.Async

namespace SocketAddress

def toNet : SocketAddress → Std.Net.SocketAddress
  | v4 h port => .v4 ⟨⟨#v[h.first, h.second, h.third, h.fourth]⟩, port⟩
  | v6 h _ port => .v6 ⟨⟨h.groups⟩, port⟩

def ofNet : Std.Net.SocketAddress → SocketAddress
  | .v4 a => .v4 ⟨a.addr.octets[0], a.addr.octets[1], a.addr.octets[2], a.addr.octets[3]⟩ a.port
  | .v6 a => .v6 ⟨a.addr.segments⟩ 0 a.port

end SocketAddress

structure Host where
  service : Service (Argument Empty) (Outcome Empty) Surroundings
  idleSeconds : Nat
  server : IO.Ref (Server Surroundings)

def look : IO Surroundings := do
  let now ← Std.Time.Timestamp.now
  let seed ← IO.getRandomBytes 8
  let number := seed.foldl (fun n (x : UInt8) => n * 256 + x.toUInt64) (0 : UInt64)
  return ⟨fun _ => Int64.ofInt now.toMillisecondsSinceUnixEpoch.val,
    fun k => number + UInt64.ofNat k * 0x9e3779b97f4a7c15, 0, 0⟩

def report (text : String) : IO Unit := do (← IO.getStderr).putStrLn text

namespace Host

def step {β : Type} (h : Host) (f : Server Surroundings → β × Server Surroundings) : IO β := do
  let now ← look
  h.server.modifyGet fun w => f { w with state.processor := now }

def finish (h : Host) (task : Nat) (ending : Server.Ending) : IO Unit :=
  h.step fun w => ((), w.finish h.service task ending)

/-- What a task waits for. -/
inductive Event where
  | received (chunk : ByteArray)
  | closed
  | idle

def wait (h : Host) (client : TCP.Socket.Client) : Async Event := do
  let patience ← Selector.sleep (.ofNat (h.idleSeconds * 1000))
  Selectable.one #[
    .case (client.recvSelector 8192) fun b => return b.elim .closed .received,
    .case patience fun _ => return .idle]

def serve (h : Host) (task : Nat) (client : TCP.Socket.Client) : Async Unit := do
  try
    h.step fun w => ((), w.begin h.service task)
    repeat
      match ← h.wait client with
      | .received chunk =>
        let (replies, open?) ← h.step fun w =>
          let (replies, w) := w.receive h.service task chunk
          ((replies, (w.tasks.lookup task).isSome), w)
        for reply in replies do client.send reply
        if !open? then break
      | .closed | .idle => break
    h.finish task .closed
  catch e => h.finish task (.failed (.io (toString e)))
  try client.shutdown catch _ => pure ()

def showTo (h : Host) (reader : TCP.Socket.Client) : Async Unit := do
  try
    let head := (← reader.recv? 8192).bind String.fromUTF8?
    let w ← h.server.get
    match head, w.state.metrics with
    | some head, some m => (m.respond? head).forM fun page => reader.send page.toUTF8
    | _, _ => pure ()
    reader.shutdown
  catch _ => pure ()

end Host

def listen (address : SocketAddress) : IO TCP.Socket.Server := do
  let listener ← TCP.Socket.Server.mk
  listener.bind address.toNet
  listener.listen 1024
  return listener

def takeClients (h : Host) (listener : TCP.Socket.Server) (interrupt : Selector Unit) :
    Async Unit := do
  repeat
    let next ← Selectable.one #[
      .case listener.acceptSelector fun client => return some client,
      .case interrupt fun _ => return none]
    match next with
    | none => break
    | some client =>
      let peer := SocketAddress.ofNet (← client.getPeerName)
      match ← h.step fun w => w.accept peer with
      | some task => background (h.serve task client)
      | none => client.shutdown
  h.step fun w => ((), w.shutDown h.service)

def takeReaders (h : Host) (listener : TCP.Socket.Server) : Async Unit := do
  repeat
    let reader ← listener.accept
    background (h.showTo reader)

def Config.serve (c : Config) : IO Unit := do
  report s!"Bind address: {c.network.address.display}"
  report s!"Allocation: {c.codec.strategy.name}"
  report s!"String pool: {c.codec.policy.name}"
  let pool := Pool.empty c.codec.policy.policy c.codec.purgeInterval
  let metrics := if c.metrics.enabled then some Metrics.empty else none
  let server ← IO.mkRef (Server.start c.network.maxConnections (.start pool metrics (← look)))
  let h : Host := ⟨⟨Builtin.registry, Standalone.processor, c.codec.strategy, fun _ => .zero⟩,
    c.network.idleSeconds, server⟩
  let listener ← listen c.network.address
  let interrupt ← Signal.Waiter.mk .sigint false
  Async.block do
    if c.metrics.enabled then
      let pages ← listen c.metrics.address
      background (takeReaders h pages)
    takeClients h listener interrupt.selector
  report "Server stopped"

def environment : IO Environment := do
  let values ← Environment.names.mapM fun name => do return (name, ← IO.getEnv name)
  return fun name => (values.lookup name).join

/-- The configuration that a command line, the environment and the settings file give together. -/
def Options.config (o : Options) : IO (Except ConfigError Config) := do
  let env ← environment
  let file ← match o.file <|> env "DOCWIRE_CONFIG" with
    | none => pure none
    | some path =>
      let content : Except String String ←
        try pure (.ok (← IO.FS.readFile path)) catch e => pure (.error (toString e))
      pure (some (path, content))
  return (Config.load file env).map (Config.withOptions o)

def Options.serve (o : Options) : IO UInt32 := do
  match (← o.config).bind fun c => (c.validate.mapError ConfigError.invalid).map fun _ => c with
  | .error e =>
    report s!"Failed to load config: {e.message}"
    return 1
  | .ok c =>
    try
      c.serve
      return 0
    catch e =>
      report (ServerError.io (toString e)).display
      return 1

end DocumentServer

open DocumentServer in
def main (arguments : List String) : IO UInt32 := do
  match Options.read arguments with
  | .error fault =>
    report s!"error: {fault.message}\n\n{Options.usage}\n\nFor more information, try '--help'."
    return 2
  | .ok .help =>
    IO.println Options.help
    return 0
  | .ok .version =>
    IO.println s!"docwire {Build.current.version}"
    return 0
  | .ok (.serve o) => o.serve
