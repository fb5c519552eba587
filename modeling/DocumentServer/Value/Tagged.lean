import DocumentServer.Document.Builder
import DocumentServer.Json

namespace DocumentServer

namespace Tagged

/-- `n` copies of `x` one after the other, for `n` below `4 ^ k`: a quarter of them four times, and
those that are left. -/
def repeated {α : Type} [Append α] (empty x : α) : Nat → Nat → α
  | 0, _ => empty
  | k + 1, n =>
    let quarter := repeated empty x k (n / 4)
    let even := quarter ++ quarter ++ quarter ++ quarter
    if n = 0 then empty else (List.replicate (n % 4) x).foldl (· ++ ·) even

def copies {α : Type} [Append α] (empty x : α) (n : Nat) : α :=
  repeated empty x (n.log2 / 2 + 1) n

def integer? : Json → Option Int
  | .integer i => some i
  | .string s => s.toInt?
  | _ => none

def natural? (j : Json) : Option Nat := (integer? j).map Int.toNat

def text? : Json → Option String
  | .string s => some s
  | .object [("repeat", .array [j, n])] => do return copies "" (← text? j) (← natural? n)
  | _ => none

def hex? (s : String) : Option ByteArray := (Text.Hex.decode (s.utf8ByteSize / 2) s).toOption

mutual

def bytes? : Json → Option ByteArray
  | .string s => hex? s
  | .array parts => bytesAll? ByteArray.empty parts
  | .object [("repeat", .array [j, n])] => do
    return copies ByteArray.empty (← bytes? j) (← natural? n)
  | _ => none

def bytesAll? (out : ByteArray) : List Json → Option ByteArray
  | [] => some out
  | j :: js => do bytesAll? (out ++ (← bytes? j)) js

end

def objectId? (j : Json) : Option ObjectId := do (ObjectId.ofHex (← j.string?)).toOption

def double? (j : Json) : Option Double := do
  let b ← hex? (← j.string?)
  return ⟨UInt64.ofNat (b.foldl (fun n x => n * 256 + x.toNat) 0)⟩

def ofDouble (d : Double) : Json :=
  let digits := Nat.toDigits 16 d.bits.toNat
  .string (String.ofList (List.replicate (16 - digits.length) '0' ++ digits))

def ofInt64 (n : Int64) : Json := .string (toString n.toInt)

def named (kind : String) (payload : Json) : Json := .object [(kind, payload)]

def scalar? (kind : String) (j : Json) : Option (Scalar String) :=
  match kind, j with
  | "double", j => (double? j).map .double
  | "string", j => (text? j).map .string
  | "binary", .array [t, b] => do return .binary (UInt8.ofNat (← natural? t)) (← bytes? b)
  | "object_id", j => (objectId? j).map .objectId
  | "boolean", .bool b => some (.boolean b)
  | "datetime", j => (integer? j).map fun n => .datetime (Int64.ofInt n)
  | "regex", .array [p, o] => do return .regex (← text? p) (← text? o)
  | "db_pointer", .array [s, o] => do return .dbPointer (← text? s) (← objectId? o)
  | "javascript", j => (text? j).map .javascript
  | "symbol", j => (text? j).map .symbol
  | "int32", j => (integer? j).map fun n => .int32 (Int32.ofInt n)
  | "timestamp", .array [s, o] => do
    return .timestamp (.ofParts (UInt32.ofNat (← natural? s)) (UInt32.ofNat (← natural? o)))
  | "int64", j => (integer? j).map fun n => .int64 (Int64.ofInt n)
  | _, _ => none

def bare? : String → Option (Scalar String)
  | "null" => some .null
  | "undefined" => some .undefined
  | "min" => some .minKey
  | "max" => some .maxKey
  | _ => none

def ofScalar : Scalar String → Json
  | .double d => named "double" (ofDouble d)
  | .string t => named "string" (.string t)
  | .binary t b => named "binary" (.array [.integer t.toNat, .string (Text.Hex.encode b)])
  | .undefined => .string "undefined"
  | .objectId o => named "object_id" (.string o.toHex)
  | .boolean b => named "boolean" (.bool b)
  | .datetime m => named "datetime" (ofInt64 m)
  | .null => .string "null"
  | .regex p o => named "regex" (.array [.string p, .string o])
  | .dbPointer s o => named "db_pointer" (.array [.string s, .string o.toHex])
  | .javascript c => named "javascript" (.string c)
  | .symbol t => named "symbol" (.string t)
  | .int32 n => named "int32" (.integer n.toInt)
  | .timestamp t => named "timestamp" (.array [.integer t.seconds, .integer t.ordinal])
  | .int64 n => named "int64" (ofInt64 n)
  | .minKey => .string "min"
  | .maxKey => .string "max"

mutual

def value? : Json → Option (Value String)
  | .string kind => (bare? kind).map .scalar
  | .object [("document", .array es)] => do return .document (Document.ofPairs (← entries? es))
  | .object [("array", .array vs)] => (items? vs).map .array
  | .object [("javascript_with_scope", .array [c, .array es])] => do
    return .codeWithScope (← text? c) (Document.ofPairs (← entries? es))
  | .object [(kind, j)] => (scalar? kind j).map .scalar
  | _ => none

def items? : List Json → Option (List (Value String))
  | [] => some []
  | j :: js => do return (← value? j) :: (← items? js)

def entries? : List Json → Option (List (String × Value String))
  | [] => some []
  | .array [k, v] :: js => do return (← text? k, ← value? v) :: (← entries? js)
  | _ => none

end

/-- A document is built pair by pair: a key that comes again replaces the value. -/
def document? (j : Json) : Option (Document String) := do
  return Document.ofPairs (← entries? (← j.items?))

mutual

def ofValue : Value String → Json
  | .scalar s => ofScalar s
  | .document es => named "document" (.array (ofEntries es))
  | .array vs => named "array" (.array (ofItems vs))
  | .codeWithScope c es =>
    named "javascript_with_scope" (.array [.string c, .array (ofEntries es)])

def ofEntries : List (String × Value String) → List Json
  | [] => []
  | (k, v) :: es => .array [.string k, ofValue v] :: ofEntries es

def ofItems : List (Value String) → List Json
  | [] => []
  | v :: vs => ofValue v :: ofItems vs

end

def ofDocument (d : Document String) : Json := .array (ofEntries d)

end Tagged

end DocumentServer
