import DocumentServer.Text.Shown
import DocumentServer.Text.Hex

namespace DocumentServer.Text.Quoted

def codePoint (c : Char) : String := "\\u\x7b" ++ Hex.ofNat c.toNat ++ "\x7d"

/-- A character as it stands between quotes of the kind `quote`. -/
def escape (quote c : Char) : String :=
  if c = quote then "\\" ++ String.singleton c
  else match c with
    | '\\' => "\\\\"
    | '\t' => "\\t"
    | '\r' => "\\r"
    | '\n' => "\\n"
    | '\x00' => "\\0"
    | c => if Shown.isHidden c then codePoint c else String.singleton c

def ofString (s : String) : String :=
  s.foldl (fun t c => t ++ escape '"' c) "\"" ++ "\""

def ofChar (c : Char) : String :=
  "'" ++ escape '\'' c ++ "'"

end DocumentServer.Text.Quoted
