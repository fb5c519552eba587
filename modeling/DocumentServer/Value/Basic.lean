import DocumentServer.Double
import DocumentServer.Text.Stored
import DocumentServer.Value.Tag
import DocumentServer.Value.ObjectId

namespace DocumentServer

/-- Seconds in the high half of a word and an ordinal within the second in the low half. -/
structure Timestamp where
  raw : UInt64
  deriving DecidableEq

namespace Timestamp

def ofParts (seconds ordinal : UInt32) : Timestamp :=
  ⟨UInt64.ofNat (seconds.toNat * 0x100000000 + ordinal.toNat)⟩

def seconds (t : Timestamp) : Nat := t.raw.toNat / 0x100000000

def ordinal (t : Timestamp) : Nat := t.raw.toNat % 0x100000000

end Timestamp

inductive Scalar (τ : Type) where
  | double (value : Double)
  | string (text : τ)
  | binary (subtype : UInt8) (bytes : ByteArray)
  | undefined
  | objectId (id : ObjectId)
  | boolean (value : Bool)
  | datetime (millis : Int64)
  | null
  | regex (pattern options : τ)
  | dbPointer (space : τ) (id : ObjectId)
  | javascript (code : τ)
  | symbol (text : τ)
  | int32 (value : Int32)
  | timestamp (value : Timestamp)
  | int64 (value : Int64)
  | minKey
  | maxKey
  deriving DecidableEq

inductive Value (τ : Type) where
  | scalar (s : Scalar τ)
  | document (entries : List (τ × Value τ))
  | array (items : List (Value τ))
  | codeWithScope (code : τ) (scope : List (τ × Value τ))

abbrev Document (τ : Type) := List (τ × Value τ)

variable {τ ρ : Type}

namespace Scalar

def tag : Scalar τ → Tag
  | double _ => .double
  | string _ => .string
  | binary _ _ => .binary
  | undefined => .undefined
  | objectId _ => .objectId
  | boolean _ => .boolean
  | datetime _ => .datetime
  | null => .null
  | regex _ _ => .regex
  | dbPointer _ _ => .dbPointer
  | javascript _ => .javascript
  | symbol _ => .symbol
  | int32 _ => .int32
  | timestamp _ => .timestamp
  | int64 _ => .int64
  | minKey => .minKey
  | maxKey => .maxKey

def mapTexts (f : τ → ρ) : Scalar τ → Scalar ρ
  | double d => double d
  | string t => string (f t)
  | binary s b => binary s b
  | undefined => undefined
  | objectId o => objectId o
  | boolean b => boolean b
  | datetime m => datetime m
  | null => null
  | regex p o => regex (f p) (f o)
  | dbPointer s o => dbPointer (f s) o
  | javascript c => javascript (f c)
  | symbol t => symbol (f t)
  | int32 n => int32 n
  | timestamp t => timestamp t
  | int64 n => int64 n
  | minKey => minKey
  | maxKey => maxKey

def strings : Scalar τ → List τ
  | string t | javascript t | symbol t => [t]
  | regex p o => [p, o]
  | dbPointer s _ => [s]
  | _ => []

end Scalar

namespace Value

def tag : Value τ → Tag
  | scalar s => s.tag
  | document _ => .document
  | array _ => .array
  | codeWithScope _ _ => .codeWithScope

def isNumeric (v : Value τ) : Bool := v.tag.isNumeric

def asString? : Value τ → Option τ
  | scalar (.string t) => some t
  | _ => none

def asBoolean? : Value τ → Option Bool
  | scalar (.boolean b) => some b
  | _ => none

def asObjectId? : Value τ → Option ObjectId
  | scalar (.objectId o) => some o
  | _ => none

def asDocument? : Value τ → Option (List (τ × Value τ))
  | document d => some d
  | _ => none

def asArray? : Value τ → Option (List (Value τ))
  | array vs => some vs
  | _ => none

end Value

mutual

def Value.mapTexts (f : τ → ρ) : Value τ → Value ρ
  | .scalar s => .scalar (s.mapTexts f)
  | .document es => .document (Document.mapTexts f es)
  | .array vs => .array (Value.mapTextsAll f vs)
  | .codeWithScope c es => .codeWithScope (f c) (Document.mapTexts f es)

def Document.mapTexts (f : τ → ρ) : List (τ × Value τ) → List (ρ × Value ρ)
  | [] => []
  | (k, v) :: es => (f k, v.mapTexts f) :: Document.mapTexts f es

def Value.mapTextsAll (f : τ → ρ) : List (Value τ) → List (Value ρ)
  | [] => []
  | v :: vs => v.mapTexts f :: Value.mapTextsAll f vs

end

mutual

def Value.keys : Value τ → List τ
  | .scalar _ => []
  | .document es => Document.allKeys es
  | .array vs => Value.keysAll vs
  | .codeWithScope _ es => Document.allKeys es

def Document.allKeys : List (τ × Value τ) → List τ
  | [] => []
  | (k, v) :: es => k :: (v.keys ++ Document.allKeys es)

def Value.keysAll : List (Value τ) → List τ
  | [] => []
  | v :: vs => v.keys ++ Value.keysAll vs

end

mutual

/-- The string payloads anywhere inside a value: strings, symbols, code, both parts of a regular
expression and the namespace of a pointer. -/
def Value.strings : Value τ → List τ
  | .scalar s => s.strings
  | .document es => Document.strings es
  | .array vs => Value.stringsAll vs
  | .codeWithScope c es => c :: Document.strings es

def Document.strings : List (τ × Value τ) → List τ
  | [] => []
  | (_, v) :: es => v.strings ++ Document.strings es

def Value.stringsAll : List (Value τ) → List τ
  | [] => []
  | v :: vs => v.strings ++ Value.stringsAll vs

end

namespace Value

def texts (v : Value τ) : List τ := v.keys ++ v.strings

/-- What a value says, without the storage of its texts. -/
def plain [HasContent τ] (v : Value τ) : Value String := v.mapTexts HasContent.content

end Value

namespace Document

variable [HasContent τ]

def texts (d : Document τ) : List τ := allKeys d ++ strings d

def plain (d : Document τ) : Document String := mapTexts HasContent.content d

def keys (d : Document τ) : List String := d.map fun e => HasContent.content e.1

def get? (d : Document τ) (key : String) : Option (Value τ) :=
  (d.find? fun e => HasContent.content e.1 = key).map Prod.snd

def contains (d : Document τ) (key : String) : Bool := (get? d key).isSome

def firstKey? (d : Document τ) : Option String := d.head?.map fun e => HasContent.content e.1

/-- Replaces the value of a known key in place; a new key goes to the end. -/
def insert (d : Document τ) (key : τ) (value : Value τ) : Document τ :=
  match d with
  | [] => [(key, value)]
  | (k, v) :: es =>
    if HasContent.content k = HasContent.content key then (k, value) :: es
    else (k, v) :: insert es key value

end Document

namespace Scalar

def detach : Scalar Text → Nat → Scalar Text × Nat
  | string t, n => let (t, n) := t.detach n; (string t, n)
  | javascript t, n => let (t, n) := t.detach n; (javascript t, n)
  | symbol t, n => let (t, n) := t.detach n; (symbol t, n)
  | regex p o, n =>
    let (p, n) := p.detach n
    let (o, n) := o.detach n
    (regex p o, n)
  | dbPointer s i, n => let (s, n) := s.detach n; (dbPointer s i, n)
  | s, n => (s, n)

end Scalar

mutual

/-- Moves every view inside a value into storage of its own, in cells from `next` on. Binary
payloads stay as they are. -/
def Value.detach : Value Text → Nat → Value Text × Nat
  | .scalar s, n => let (s, n) := s.detach n; (.scalar s, n)
  | .document es, n => let (es, n) := Document.detach es n; (.document es, n)
  | .array vs, n => let (vs, n) := Value.detachAll vs n; (.array vs, n)
  | .codeWithScope c es, n =>
    let (c, n) := c.detach n
    let (es, n) := Document.detach es n
    (.codeWithScope c es, n)

def Document.detach : List (Text × Value Text) → Nat → List (Text × Value Text) × Nat
  | [], n => ([], n)
  | (k, v) :: es, n =>
    let (k, n) := k.detach n
    let (v, n) := v.detach n
    let (es, n) := Document.detach es n
    ((k, v) :: es, n)

def Value.detachAll : List (Value Text) → Nat → List (Value Text) × Nat
  | [], n => ([], n)
  | v :: vs, n =>
    let (v, n) := v.detach n
    let (vs, n) := Value.detachAll vs n
    (v :: vs, n)

end

end DocumentServer
