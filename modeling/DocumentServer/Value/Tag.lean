namespace DocumentServer

inductive Tag where
  | double
  | string
  | document
  | array
  | binary
  | undefined
  | objectId
  | boolean
  | datetime
  | null
  | regex
  | dbPointer
  | javascript
  | symbol
  | codeWithScope
  | int32
  | timestamp
  | int64
  | maxKey
  | minKey
  deriving DecidableEq, Inhabited

namespace Tag

def byte : Tag → UInt8
  | double => 0x01
  | string => 0x02
  | document => 0x03
  | array => 0x04
  | binary => 0x05
  | undefined => 0x06
  | objectId => 0x07
  | boolean => 0x08
  | datetime => 0x09
  | null => 0x0a
  | regex => 0x0b
  | dbPointer => 0x0c
  | javascript => 0x0d
  | symbol => 0x0e
  | codeWithScope => 0x0f
  | int32 => 0x10
  | timestamp => 0x11
  | int64 => 0x12
  | maxKey => 0x7f
  | minKey => 0xff

def all : List Tag :=
  [double, string, document, array, binary, undefined, objectId, boolean, datetime, null, regex,
    dbPointer, javascript, symbol, codeWithScope, int32, timestamp, int64, maxKey, minKey]

def ofByte? (x : UInt8) : Option Tag := all.find? fun t => t.byte = x

/-- The rank of the comparison class. Types of one class (the numbers; strings and symbols) are
compared by payload before their tags. -/
def rank : Tag → Nat
  | minKey => 0
  | undefined => 1
  | null => 2
  | int32 | int64 | double => 3
  | string | symbol => 4
  | document => 5
  | array => 6
  | binary => 7
  | objectId => 8
  | boolean => 9
  | datetime => 10
  | timestamp => 11
  | regex => 12
  | dbPointer => 13
  | javascript => 14
  | codeWithScope => 15
  | maxKey => 16

def isNumeric (t : Tag) : Bool := t.rank = 3

def name : Tag → String
  | double => "double"
  | string => "string"
  | document => "document"
  | array => "array"
  | binary => "binary"
  | undefined => "undefined"
  | objectId => "object_id"
  | boolean => "boolean"
  | datetime => "datetime"
  | null => "null"
  | regex => "regex"
  | dbPointer => "db_pointer"
  | javascript => "javascript"
  | symbol => "symbol"
  | codeWithScope => "javascript_with_scope"
  | int32 => "int32"
  | timestamp => "timestamp"
  | int64 => "int64"
  | maxKey => "max"
  | minKey => "min"

theorem ofByte?_byte (t : Tag) : ofByte? t.byte = some t := by
  cases t <;> rfl

theorem byte_of_ofByte? {x : UInt8} {t : Tag} (h : ofByte? x = some t) : t.byte = x := by
  simpa using List.find?_some h

end Tag

end DocumentServer
