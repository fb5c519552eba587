import DocumentServer.Message.Body
import DocumentServer.Message.Frame
import DocumentServer.Value.Order

namespace DocumentServer

def hasBit (bits : UInt32) (n : Nat) : Bool := bits.toNat.testBit n

def setBit (bits : UInt32) (n : Nat) : UInt32 := UInt32.ofNat (bits.toNat ||| 1 <<< n)

structure QueryOptions where
  bits : UInt32
  deriving DecidableEq

namespace QueryOptions

def none : QueryOptions := ⟨0⟩

def tailable (o : QueryOptions) : Bool := hasBit o.bits 1

def slaveOk (o : QueryOptions) : Bool := hasBit o.bits 2

def oplogReplay (o : QueryOptions) : Bool := hasBit o.bits 3

def noCursorTimeout (o : QueryOptions) : Bool := hasBit o.bits 4

def awaitData (o : QueryOptions) : Bool := hasBit o.bits 5

def exhaust (o : QueryOptions) : Bool := hasBit o.bits 6

def partialResults (o : QueryOptions) : Bool := hasBit o.bits 7

def withTailable (o : QueryOptions) : QueryOptions := ⟨setBit o.bits 1⟩

def withSlaveOk (o : QueryOptions) : QueryOptions := ⟨setBit o.bits 2⟩

end QueryOptions

structure Query where
  space : Namespace
  options : QueryOptions
  skip : Int32
  numberToReturn : Int32
  query : Document String
  projection : Option (Document String)
  deriving BEq

namespace Query

def command (database : String) (d : Document String) : Query :=
  ⟨.command database, .none, 0, -1, d, none⟩

def isCommand (q : Query) : Bool := q.space.isCommand

def limit (q : Query) : Nat := q.numberToReturn.toInt.natAbs

def closesCursor (q : Query) : Bool := q.numberToReturn.toInt < 0 || q.numberToReturn = 1

end Query

structure Insert where
  space : Namespace
  continueOnError : Bool
  documents : List (Document String)
  deriving BEq

structure Update where
  space : Namespace
  upsert : Bool
  multi : Bool
  selector : Document String
  update : Document String
  deriving BEq

structure Delete where
  space : Namespace
  single : Bool
  selector : Document String
  deriving BEq

structure GetMore where
  space : Namespace
  numberToReturn : Int32
  cursorId : Int64
  deriving DecidableEq

inductive Request where
  | query (q : Query)
  | insert (m : Insert)
  | update (m : Update)
  | delete (m : Delete)
  | getMore (m : GetMore)
  | killCursors (cursorIds : List Int64)
  deriving BEq

namespace Request

def opcode : Request → Opcode
  | query _ => .query
  | insert _ => .insert
  | update _ => .update
  | delete _ => .delete
  | getMore _ => .getMore
  | killCursors _ => .killCursors

def space? : Request → Option Namespace
  | query q => some q.space
  | insert m => some m.space
  | update m => some m.space
  | delete m => some m.space
  | getMore m => some m.space
  | killCursors _ => none

open Body (Source)

def readQuery (b : Source) : BodyRead Request := do
  let options ← b.uint32
  let space ← b.space
  let skip ← b.int32
  let numberToReturn ← b.int32
  let q ← b.document
  let projection ← if ← b.atEnd then pure none else some <$> b.document
  return query ⟨space, ⟨options⟩, skip, numberToReturn, q, projection⟩

def readInsert (b : Source) : BodyRead Request := do
  let flags ← b.uint32
  let space ← b.space
  let ds ← b.documents b.bytes.size #[]
  if ds.isEmpty then b.malformed .nothingToInsert
  else return insert ⟨space, hasBit flags 0, ds⟩

/-- The first word of an update, a delete, a get-more or a kill-cursors is not looked at. -/
def readUpdate (b : Source) : BodyRead Request := do
  let _ ← b.int32
  let space ← b.space
  let flags ← b.uint32
  let selector ← b.document
  let change ← b.document
  return update ⟨space, hasBit flags 0, hasBit flags 1, selector, change⟩

def readDelete (b : Source) : BodyRead Request := do
  let _ ← b.int32
  let space ← b.space
  let flags ← b.uint32
  let selector ← b.document
  return delete ⟨space, hasBit flags 0, selector⟩

def readGetMore (b : Source) : BodyRead Request := do
  let _ ← b.int32
  let space ← b.space
  let numberToReturn ← b.int32
  let cursorId ← b.int64
  return getMore ⟨space, numberToReturn, cursorId⟩

def readKillCursors (b : Source) : BodyRead Request := do
  let _ ← b.int32
  let n ← b.count .negativeCursorCount
  return killCursors (← Read.times b.int64 n #[])

/-- The request that fills a body. A reply is well framed but no request. -/
def read (b : Source) : BodyRead Request := do
  let m ← match b.opcode with
    | .query => readQuery b
    | .insert => readInsert b
    | .update => readUpdate b
    | .delete => readDelete b
    | .getMore => readGetMore b
    | .killCursors => readKillCursors b
    | .reply => b.malformed .replyAsRequest
  b.finish
  return m

/-- The request of a frame. Its texts are held by the pool until they are let go. -/
def parse (strategy : Strategy) (f : Frame) (p : Pool) : Except MessageError Request × Pool :=
  let b : Source := ⟨f.opcode, f.body, strategy⟩
  Body.run (read b) p

def flagWord (first second : Bool) : ByteArray :=
  Bytes.ofSize ((if first then 1 else 0) + (if second then 2 else 0))

def reserved : ByteArray := Bytes.ofSize 0

def body : Request → Except (Stop MessageError) ByteArray
  | query q =>
    Body.encodeAll
      (Bytes.ofUInt32 q.options.bits ++ Body.cstring q.space.display ++ Bytes.ofInt32 q.skip
        ++ Bytes.ofInt32 q.numberToReturn)
      (q.query :: q.projection.toList)
  | insert m =>
    Body.encodeAll (flagWord m.continueOnError false ++ Body.cstring m.space.display) m.documents
  | update m =>
    Body.encodeAll (reserved ++ Body.cstring m.space.display ++ flagWord m.upsert m.multi)
      [m.selector, m.update]
  | delete m =>
    Body.encodeAll (reserved ++ Body.cstring m.space.display ++ flagWord m.single false)
      [m.selector]
  | getMore m =>
    .ok (reserved ++ Body.cstring m.space.display ++ Bytes.ofInt32 m.numberToReturn
      ++ Bytes.ofInt64 m.cursorId)
  | killCursors ids =>
    .ok (ids.foldl (fun out id => out ++ Bytes.ofInt64 id) (reserved ++ Bytes.ofSize ids.length))

def encode (m : Request) (requestId : Int32) : Except (Stop MessageError) ByteArray := do
  (Frame.encode ⟨requestId, 0, m.opcode, ← m.body⟩).mapError .error

end Request

end DocumentServer
