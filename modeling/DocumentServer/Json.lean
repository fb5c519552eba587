import DocumentServer.Double.Shortest
import DocumentServer.Text.Hex

namespace DocumentServer

inductive Json where
  | null
  | bool (value : Bool)
  | integer (value : Int)
  | double (value : Double)
  | string (text : String)
  | array (items : List Json)
  | object (fields : List (String × Json))
  deriving Inhabited

namespace Json

def get? (key : String) : Json → Option Json
  | object fields => fields.lookup key
  | _ => none

def items? : Json → Option (List Json)
  | array items => some items
  | _ => none

def string? : Json → Option String
  | string text => some text
  | _ => none

def bool? : Json → Option Bool
  | bool value => some value
  | _ => none

def doubleFormat : Double.Format := ⟨-5, 15, true, true⟩

def ofFields (fields : List (String × Json)) : Json :=
  object (fields.mergeSort fun a b => a.1 ≤ b.1)

def escape (c : Char) : String :=
  match c with
  | '"' => "\\\""
  | '\\' => "\\\\"
  | '\n' => "\\n"
  | '\r' => "\\r"
  | '\t' => "\\t"
  | '\x08' => "\\b"
  | '\x0c' => "\\f"
  | c =>
    if c.toNat < 0x20 then
      "\\u00" ++ String.ofList (Text.Hex.ofByte (UInt8.ofNat c.toNat))
    else String.singleton c

def quote (out s : String) : String :=
  (s.foldl (fun t c => if c.toNat < 0x20 || c = '"' || c = '\\' then t ++ escape c else t.push c)
    (out.push '"')).push '"'

mutual

def write (out : String) : Json → String
  | null => out ++ "null"
  | bool b => out ++ (if b then "true" else "false")
  | integer i => out ++ toString i
  | double d => out ++ d.render doubleFormat
  | string s => quote out s
  | array items => (writeItems (out.push '[') true items).push ']'
  | object fields => (writeFields (out.push '\x7b') true fields).push '\x7d'

def writeItems (out : String) (first : Bool) : List Json → String
  | [] => out
  | v :: vs => writeItems (write (if first then out else out.push ',') v) false vs

def writeFields (out : String) (first : Bool) : List (String × Json) → String
  | [] => out
  | (k, v) :: es =>
    writeFields (write ((quote (if first then out else out.push ',') k).push ':') v) false es

end

def compact (v : Json) : String := write "" v

end Json

end DocumentServer
