import DocumentServer.Message.Request

namespace DocumentServer

/-- The flag word of a reply; bits without a name are kept. -/
structure ReplyFlags where
  bits : UInt32
  deriving DecidableEq

namespace ReplyFlags

def none : ReplyFlags := ⟨0⟩

def cursorNotFound (f : ReplyFlags) : Bool := hasBit f.bits 0

def queryFailure (f : ReplyFlags) : Bool := hasBit f.bits 1

def awaitCapable (f : ReplyFlags) : Bool := hasBit f.bits 3

def withCursorNotFound (f : ReplyFlags) : ReplyFlags := ⟨setBit f.bits 0⟩

def withQueryFailure (f : ReplyFlags) : ReplyFlags := ⟨setBit f.bits 1⟩

def withAwaitCapable (f : ReplyFlags) : ReplyFlags := ⟨setBit f.bits 3⟩

end ReplyFlags

structure Reply where
  flags : ReplyFlags
  cursorId : Int64
  startingFrom : Int32
  documents : List (Document String)
  deriving BEq

namespace Reply

def single (d : Document String) : Reply := ⟨.none, 0, 0, [d]⟩

def failure (d : Document String) : Reply := ⟨ReplyFlags.none.withQueryFailure, 0, 0, [d]⟩

def body (r : Reply) : Except (Stop MessageError) ByteArray :=
  Body.encodeAll
    (Bytes.ofUInt32 r.flags.bits ++ Bytes.ofInt64 r.cursorId ++ Bytes.ofInt32 r.startingFrom
      ++ Bytes.ofSize r.documents.length)
    r.documents

def encode (r : Reply) (requestId responseTo : Int32) : Except (Stop MessageError) ByteArray := do
  (Frame.encode ⟨requestId, responseTo, .reply, ← r.body⟩).mapError .error

def read (b : Body.Source) : BodyRead Reply := do
  let flags ← b.uint32
  let cursorId ← b.int64
  let startingFrom ← b.int32
  let n ← b.count .negativeDocumentCount
  let ds ← Read.times b.document n #[]
  b.finish
  return ⟨⟨flags⟩, cursorId, startingFrom, ds⟩

def parse (strategy : Strategy) (f : Frame) (p : Pool) : Except MessageError Reply × Pool :=
  let b : Body.Source := ⟨.reply, f.body, strategy⟩
  Body.run (read b) p

end Reply

end DocumentServer
