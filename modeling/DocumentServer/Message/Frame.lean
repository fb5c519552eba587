import DocumentServer.Bytes
import DocumentServer.Message.Error

namespace DocumentServer

structure Frame where
  requestId : Int32
  responseTo : Int32
  opcode : Opcode
  body : ByteArray
  deriving DecidableEq

namespace Frame

def length (f : Frame) : Nat := headerSize + f.body.size

def header (f : Frame) : ByteArray :=
  Bytes.ofSize f.length ++ Bytes.ofInt32 f.requestId ++ Bytes.ofInt32 f.responseTo
    ++ Bytes.ofSize f.opcode.number

def encode (f : Frame) : Except MessageError ByteArray :=
  if f.length > maxMessageSize then .error (.tooLarge f.length) else .ok (f.header ++ f.body)

/-- Cuts the first frame off a buffer, if all of it is there. The length is checked as soon as it
is there, and the opcode as soon as the header is. -/
def split? (b : ByteArray) : Except MessageError (Option (Frame × ByteArray)) :=
  if b.size < 4 then .ok none
  else
    let declared := (Bytes.int32 b 0).toInt
    if declared < headerSize ∨ declared > maxMessageSize then .error (.invalidLength declared)
    else if b.size < headerSize then .ok none
    else
      let number := (Bytes.int32 b 12).toInt
      match Opcode.ofNumber? number with
      | none => .error (.unknownOpcode number)
      | some opcode =>
        let size := declared.toNat
        if b.size < size then .ok none
        else
          .ok (some (⟨Bytes.int32 b 4, Bytes.int32 b 8, opcode, b.extract headerSize size⟩,
            b.extract size b.size))

end Frame

/-- The bytes of a stream that are not yet part of a frame. -/
structure FrameStream where
  buffer : ByteArray

namespace FrameStream

def empty : FrameStream := ⟨ByteArray.empty⟩

def extend (s : FrameStream) (b : ByteArray) : FrameStream := ⟨s.buffer ++ b⟩

/-- The next frame, if it is complete. The buffer changes only if there is one. -/
def next (s : FrameStream) : Except MessageError (Option Frame) × FrameStream :=
  match Frame.split? s.buffer with
  | .ok (some (f, rest)) => (.ok (some f), ⟨rest⟩)
  | .ok none => (.ok none, s)
  | .error e => (.error e, s)

end FrameStream

end DocumentServer
