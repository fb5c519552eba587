import DocumentServer.Json
import DocumentServer.Value.Basic
import DocumentServer.Value.Date

namespace DocumentServer

namespace Scalar

def toJson : Scalar String → Json
  | double d =>
    if d.isFinite then .double d
    else .object [("$numberDouble", .string d.renderSpecial)]
  | string t => .string t
  | binary s b =>
    .object [("$binary", .object [("hex", .string (Text.Hex.encode b)),
      ("subType", .string (String.ofList (Text.Hex.ofByte s)))])]
  | undefined => .object [("$undefined", .bool true)]
  | objectId o => .object [("$oid", .string o.toHex)]
  | boolean b => .bool b
  | datetime m =>
    .object [("$date", match Date.render? m.toInt with
      | some t => .string t
      | none => .object [("$numberLong", .string (toString m.toInt))])]
  | null => .null
  | regex p o =>
    .object [("$regularExpression", .object [("options", .string o), ("pattern", .string p)])]
  | dbPointer s o =>
    .object [("$dbPointer", .object [("$id", .object [("$oid", .string o.toHex)]),
      ("$ref", .string s)])]
  | javascript c => .object [("$code", .string c)]
  | symbol t => .object [("$symbol", .string t)]
  | int32 n => .integer n.toInt
  | timestamp t =>
    .object [("$timestamp", .object [("i", .integer t.ordinal), ("t", .integer t.seconds)])]
  | int64 n => .integer n.toInt
  | minKey => .object [("$minKey", .integer 1)]
  | maxKey => .object [("$maxKey", .integer 1)]

end Scalar

mutual

def Value.toJson : Value String → Json
  | .scalar s => s.toJson
  | .document es => .ofFields (Document.jsonFields es)
  | .array vs => .array (Value.jsonItems vs)
  | .codeWithScope c es =>
    .object [("$code", .string c), ("$scope", .ofFields (Document.jsonFields es))]

def Document.jsonFields : List (String × Value String) → List (String × Json)
  | [] => []
  | (k, v) :: es => (k, v.toJson) :: Document.jsonFields es

def Value.jsonItems : List (Value String) → List Json
  | [] => []
  | v :: vs => v.toJson :: Value.jsonItems vs

end

def Value.render (v : Value String) : String := v.toJson.compact

def Document.render (d : Document String) : String := (Value.document d).render

end DocumentServer
