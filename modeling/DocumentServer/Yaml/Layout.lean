import DocumentServer.Yaml.Token

namespace DocumentServer.Yaml

structure MaybeKey where
  /-- How many tokens stand before it. -/
  before : Nat
  start : Cursor
  /-- Whether nothing but a key can stand there. -/
  isRequired : Bool

structure Layout where
  cursor : Cursor
  /-- The tokens so far, the last one first. -/
  tokens : List Token := []
  /-- One more than the columns of the open block collections, the innermost first. -/
  levels : List Nat := []
  /-- Whether a key can start here that is not marked as one. -/
  allowsKey : Bool := true
  /-- The key that may have started, outside brackets and inside each pair; the innermost first. -/
  keys : List (Option MaybeKey) := [none]

namespace Layout

def inBrackets (l : Layout) : Bool := l.keys.length > 1

/-- The least column at which what belongs to the innermost block collection stands. -/
def level (l : Layout) : Nat := l.levels.headD 0

def emit (t : Token) (l : Layout) : Layout := { l with tokens := t :: l.tokens }

def goTo (p : Cursor) (l : Layout) : Layout := { l with cursor := p }

def closeTo (level : Nat) (l : Layout) : Layout :=
  if l.inBrackets then l
  else
    let closed := (l.levels.takeWhile (level < ·)).length
    { l with
      tokens := List.replicate closed Token.blockEnd ++ l.tokens
      levels := l.levels.drop closed }

/-- Opens a block collection at a column, unless one is open there. It stands before the last `n`
tokens. -/
def openAt (column : Nat) (t : Token) (n : Nat) (l : Layout) : Layout :=
  if l.inBrackets || l.level > column then l
  else
    { l with
      tokens := l.tokens.take n ++ t :: l.tokens.drop n
      levels := (column + 1) :: l.levels }

def dropKey (l : Layout) : Option Layout :=
  match l.keys with
  | some k :: keys => if k.isRequired then none else some { l with keys := none :: keys }
  | _ => some l

def saveKey (l : Layout) : Option Layout := do
  if !l.allowsKey then return l
  let l ← l.dropKey
  let isRequired := !l.inBrackets && l.level = l.cursor.column + 1
  return { l with keys := some ⟨l.tokens.length, l.cursor, isRequired⟩ :: l.keys.tail }

def dropLongKeys (l : Layout) : Option Layout := do
  let keys ← l.keys.mapM fun key =>
    match key with
    | some k =>
      if k.start.line < l.cursor.line || k.start.index + 1024 < l.cursor.index then
        if k.isRequired then none else some none
      else some (some k)
    | none => some none
  return { l with keys }

/-- Past blanks, comments and breaks, at most `n` lines of them. A tab is a blank except where a key
outside brackets can start. -/
def skipGap : Nat → Layout → Layout
  | 0, l => l
  | n + 1, l =>
    let p := l.cursor
    let p := if p.column = 0 && p.rest.head? = some '\ufeff' then p.skip 1 else p
    let p := p.skipWhile fun c => c = ' ' || (c = '\t' && (l.inBrackets || !l.allowsKey))
    let p := p.skipComment
    match p.break? with
    | some (_, q) => skipGap n { l with cursor := q, allowsKey := l.allowsKey || !l.inBrackets }
    | none => l.goTo p

def outermost (read : Cursor → Option (Token × Cursor)) (l : Layout) : Option Layout := do
  let l ← (l.closeTo 0).dropKey
  let (t, p) ← read l.cursor
  return { (l.emit t).goTo p with allowsKey := false }

def openBracket (t : Token) (l : Layout) : Option Layout := do
  let l ← l.saveKey
  return { (l.emit t).goTo (l.cursor.skip 1) with allowsKey := true, keys := none :: l.keys }

def closeBracket (t : Token) (l : Layout) : Option Layout := do
  let l ← l.dropKey
  return { (l.emit t).goTo (l.cursor.skip 1) with
    allowsKey := false
    keys := if l.inBrackets then l.keys.tail else l.keys }

def mark (t : Token) (opens : Option Token) (allowsKey : Bool) (l : Layout) : Option Layout := do
  let l ← match opens with
    | some collection =>
      if l.inBrackets then some l
      else if l.allowsKey then some (l.openAt l.cursor.column collection 0)
      else none
    | none => some l
  let l ← l.dropKey
  return { (l.emit t).goTo (l.cursor.skip 1) with allowsKey }

/-- A colon. What stands before it becomes a key if it may have been one. -/
def colon (l : Layout) : Option Layout := do
  let p := l.cursor.skip 1
  match l.keys with
  | some k :: keys =>
    let n := l.tokens.length - k.before
    let l := { l with tokens := l.tokens.take n ++ Token.key :: l.tokens.drop n }
    let l := l.openAt k.start.column .blockMapping (n + 1)
    return { (l.emit .value).goTo p with allowsKey := false, keys := none :: keys }
  | _ =>
    if l.inBrackets then return { (l.emit .value).goTo p with allowsKey := false }
    else if l.allowsKey then return ((l.openAt l.cursor.column .blockMapping 0).emit .value).goTo p
    else none

def startOfKey (read : Cursor → Option (Token × Cursor)) (l : Layout) : Option Layout := do
  let l ← l.saveKey
  let (t, p) ← read l.cursor
  return { (l.emit t).goTo p with allowsKey := false }

def reference (token : String → Token) (p : Cursor) : Option (Token × Cursor) := do
  let (name, q) ← (p.skip 1).name
  return (token name, q)

def quoted (quote : Char) (p : Cursor) : Option (Token × Cursor) := do
  let (text, q) ← (p.skip 1).quoted quote p.rest.length
  return (.scalar (String.ofList text) .quoted, q)

/-- A plain scalar. If breaks follow it, a key can start behind them. -/
def plain (l : Layout) : Option Layout := do
  let l ← l.saveKey
  let (text, breaks, p) ←
    l.cursor.plain l.inBrackets l.level (l.cursor.rest.length + 1) .none
  return { (l.emit (.scalar (String.ofList text) .plain)).goTo p with allowsKey := breaks }

def block (style : Style) (l : Layout) : Option Layout := do
  let l ← l.dropKey
  let (text, p) ← (l.cursor.skip 1).block (style = .folded) l.level
  return { (l.emit (.scalar (String.ofList text) style)).goTo p with allowsKey := true }

/-- Whether a plain scalar can start at a character before another. Marks can start one only where
they are not marks. -/
def startsPlain (inBrackets : Bool) (c : Char) (next : Option Char) : Bool :=
  !(isSpace c || "-?:,[]\x7b\x7d#&*!|>'\"%@`".toList.contains c)
    || (c = '-' && !next.any isBlank)
    || (!inBrackets && (c = '?' || c = ':') && !next.all isSpace)

def token (c : Char) (l : Layout) : Option Layout :=
  let p := l.cursor
  if p.column = 0 && c = '%' then l.outermost Cursor.directive
  else if p.isAtMark then
    l.outermost fun p => some (if c = '-' then .documentStart else .documentEnd, p.skip 3)
  else if c = '[' then l.openBracket .openSequence
  else if c = '\x7b' then l.openBracket .openMapping
  else if c = ']' then l.closeBracket .closeSequence
  else if c = '\x7d' then l.closeBracket .closeMapping
  else if c = ',' then l.mark .comma none true
  else if c = '-' && p.endsAfter 1 then l.mark .item (some .blockSequence) true
  else if c = '?' && (l.inBrackets || p.endsAfter 1) then
    l.mark .key (some .blockMapping) !l.inBrackets
  else if c = ':' && (l.inBrackets || p.endsAfter 1) then l.colon
  else if c = '*' then l.startOfKey (reference .reference)
  else if c = '&' then l.startOfKey (reference .anchor)
  else if c = '!' then l.startOfKey (Cursor.tag l.inBrackets)
  else if c = '|' && !l.inBrackets then l.block .literal
  else if c = '>' && !l.inBrackets then l.block .folded
  else if c = '\'' || c = '"' then l.startOfKey (quoted c)
  else if startsPlain l.inBrackets c (p.rest.drop 1).head? then l.plain
  else none

def run : Nat → Layout → Option (List Token)
  | 0, _ => none
  | n + 1, l => do
    let l ← (l.skipGap (l.cursor.rest.length + 1)).dropLongKeys
    let l := l.closeTo (l.cursor.column + 1)
    match l.cursor.rest.head? with
    | none => return (← (l.closeTo 0).dropKey).tokens.reverse
    | some c => run n (← l.token c)

end Layout

/-- Whether a character may stand in an outline: no control but tabs and breaks, and no
noncharacter of the first plane. -/
def isAllowed (c : Char) : Bool :=
  c = '\t' || c = '\n' || c = '\r' || (' ' ≤ c && c ≤ '~') || c = '\x85'
    || ('\xa0' ≤ c && c ≠ '\ufffe' && c ≠ '\uffff')

def tokens (s : String) : Option (List Token) :=
  if s.toList.all isAllowed then
    Layout.run (s.length + 1) { cursor := { rest := s.toList } }
  else none

end DocumentServer.Yaml
