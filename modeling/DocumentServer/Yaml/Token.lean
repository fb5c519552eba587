import DocumentServer.Yaml.Scalar

namespace DocumentServer.Yaml

inductive Token where
  | version (major minor : Nat)
  | handle (name start : String)
  | documentStart
  | documentEnd
  | blockSequence
  | blockMapping
  | blockEnd
  | openSequence
  | closeSequence
  | openMapping
  | closeMapping
  | item
  | comma
  | key
  | value
  | anchor (name : String)
  | reference (name : String)
  | tag (handle suffix : String)
  | scalar (text : String) (style : Style)
  deriving DecidableEq

/-- The characters of a tag; commas and square brackets only where it stands between angle
brackets. -/
def isTagChar (isWhole : Bool) (c : Char) : Bool :=
  isNameChar c || ";/?:@&=+$.%!~*'()".toList.contains c || (isWhole && ",[]".toList.contains c)

def tagOctets : List Char → Option (List UInt8)
  | [] => some []
  | '%' :: c :: d :: cs => do
    let high ← Address.digit? 16 c
    let low ← Address.digit? 16 d
    return UInt8.ofNat (16 * high + low) :: (← tagOctets cs)
  | '%' :: _ => none
  | c :: cs => do return UInt8.ofNat c.toNat :: (← tagOctets cs)

namespace Cursor

def word (f : Char → Bool) (p : Cursor) : String × Cursor :=
  (String.ofList (p.rest.takeWhile f), p.skipWhile f)

def name (p : Cursor) : Option (String × Cursor) :=
  let (text, p) := p.word isNameChar
  if !text.isEmpty && (p.endsAfter 0 || p.rest.head?.any "?:,]\x7d%@`".toList.contains) then
    some (text, p)
  else none

def tagText (isWhole : Bool) (p : Cursor) : Option (String × Cursor) := do
  let cs := p.rest.takeWhile (isTagChar isWhole)
  let text ← String.fromUTF8? ⟨(← tagOctets cs).toArray⟩
  return (text, p.skip cs.length)

def tagHandle (p : Cursor) : String × Cursor :=
  let (name, q) := (p.skip 1).word isNameChar
  if q.rest.head? = some '!' then ("!" ++ name ++ "!", q.skip 1) else ("!" ++ name, q)

/-- A tag: whole, behind a handle, or behind the short handle of one exclamation mark. -/
def tag (inBrackets : Bool) (p : Cursor) : Option (Token × Cursor) := do
  let (token, q) ←
    if p.rest.take 2 = ['!', '<'] then do
      let (text, q) ← (p.skip 2).tagText true
      if text.isEmpty || q.rest.head? ≠ some '>' then none
      pure (Token.tag "" text, q.skip 1)
    else do
      let (handle, q) := p.tagHandle
      let (text, q) ← q.tagText false
      if handle.length > 1 && handle.endsWith "!" then
        if text.isEmpty then none else pure (Token.tag handle text, q)
      else
        let text := (handle.drop 1).toString ++ text
        pure (if text.isEmpty then Token.tag "" "!" else Token.tag "!" text, q)
  if q.endsAfter 0 || (inBrackets && q.rest.head? = some ',') then return (token, q) else none

def versionNumber (p : Cursor) : Option (Nat × Cursor) := do
  let (text, p) := p.word Char.isDigit
  if text.length > 9 then none else return (← text.toNat?, p)

/-- A directive, which fills its line but for a comment: the version of the format, or the start of
the tags with a handle. -/
def directive (p : Cursor) : Option (Token × Cursor) := do
  let (name, p) := (p.skip 1).word isNameChar
  if !p.endsAfter 0 then none
  let (token, p) ← match name with
    | "YAML" => do
      let (major, p) ← (p.skipWhile isBlank).versionNumber
      if p.rest.head? ≠ some '.' then none
      let (minor, p) ← (p.skip 1).versionNumber
      pure (Token.version major minor, p)
    | "TAG" => do
      let p := p.skipWhile isBlank
      if p.rest.head? ≠ some '!' then none
      let (handle, p) := p.tagHandle
      if !handle.endsWith "!" || !p.rest.head?.any isBlank then none
      let (start, p) ← (p.skipWhile isBlank).tagText true
      if start.isEmpty || !p.endsAfter 0 then none
      pure (Token.handle handle start, p)
    | _ => none
  let p := (p.skipWhile isBlank).skipComment
  match p.break? with
  | some (_, q) => return (token, q)
  | none => if p.rest.isEmpty then return (token, p) else none

end Cursor

end DocumentServer.Yaml
