import DocumentServer.Server.Service

namespace DocumentServer

structure Link where
  connection : Connection
  stream : FrameStream

namespace Link

variable {α ρ π : Type}

def opened (c : Connection) : Link := ⟨c, .empty⟩

/-- What a run of the loop did: the replies that it wrote, the number of frames that it served, and
what it stopped at. -/
structure Run (π : Type) where
  replies : List ByteArray
  frames : Nat
  error : Option (Stop MessageError)
  link : Link
  state : ServiceState π

def serve (v : Service α ρ π) : Nat → Link → ServiceState π → Run π
  | 0, k, s => ⟨[], 0, none, k, s⟩
  | n + 1, k, s =>
    match k.stream.next with
    | (.error e, stream) => ⟨[], 0, some (.error e), { k with stream }, s⟩
    | (.ok none, stream) => ⟨[], 0, none, { k with stream }, s⟩
    | (.ok (some f), stream) =>
      match v.dispatch f k.connection s with
      | (.error stop, c, s) => ⟨[], 1, some stop, ⟨c, stream⟩, s⟩
      | (.ok reply, c, s) =>
        let r := serve v n ⟨c, stream⟩ s
        { r with replies := reply.toList ++ r.replies, frames := r.frames + 1 }

/-- Takes a chunk and serves what it completes. Every frame takes up some of the buffer, so it holds
fewer frames than bytes. -/
def receive (v : Service α ρ π) (chunk : ByteArray) (k : Link) (s : ServiceState π) : Run π :=
  let stream := k.stream.extend chunk
  serve v (stream.buffer.size + 1) { k with stream } s

def receiveAll (v : Service α ρ π) : List ByteArray → Link → ServiceState π → Run π
  | [], k, s => ⟨[], 0, none, k, s⟩
  | chunk :: chunks, k, s =>
    let r := receive v chunk k s
    match r.error with
    | some _ => r
    | none =>
      let t := receiveAll v chunks r.link r.state
      { t with replies := r.replies ++ t.replies, frames := r.frames + t.frames }

def Run.output {π : Type} (r : Run π) : ByteArray := r.replies.foldl (· ++ ·) ByteArray.empty

end Link

end DocumentServer
