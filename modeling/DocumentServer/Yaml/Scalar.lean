import DocumentServer.Address.Read
import DocumentServer.Yaml.Cursor

namespace DocumentServer.Yaml

inductive Style where
  | plain
  | quoted
  | literal
  | folded
  deriving DecidableEq

def ofCode (n : Nat) (cs : List Char) : Option (Char × Nat) := do
  let (code, rest) ← Address.number 16 0x110000 (cs.take n)
  if rest.isEmpty && n ≤ cs.length && code.isValidChar then return (Char.ofNat code, n + 1)
  else none

def escape : List Char → Option (Char × Nat)
  | '0' :: _ => some ('\x00', 1)
  | 'a' :: _ => some ('\x07', 1)
  | 'b' :: _ => some ('\x08', 1)
  | 't' :: _ | '\t' :: _ => some ('\t', 1)
  | 'n' :: _ => some ('\n', 1)
  | 'v' :: _ => some ('\x0b', 1)
  | 'f' :: _ => some ('\x0c', 1)
  | 'r' :: _ => some ('\r', 1)
  | 'e' :: _ => some ('\x1b', 1)
  | ' ' :: _ => some (' ', 1)
  | '"' :: _ => some ('"', 1)
  | '/' :: _ => some ('/', 1)
  | '\\' :: _ => some ('\\', 1)
  | 'N' :: _ => some ('\x85', 1)
  | '_' :: _ => some ('\xa0', 1)
  | 'L' :: _ => some ('\u2028', 1)
  | 'P' :: _ => some ('\u2029', 1)
  | 'x' :: cs => ofCode 2 cs
  | 'u' :: cs => ofCode 4 cs
  | 'U' :: cs => ofCode 8 cs
  | _ => none

namespace Cursor

/-- The text up to the closing quote, read in at most `n` steps. A single quote inside single quotes
is written twice; double quotes have escapes, and a backslash before a break joins two lines. -/
def quoted (quote : Char) : Nat → Cursor → Option (List Char × Cursor)
  | 0, _ => none
  | n + 1, p =>
    if p.isAtMark then none
    else match p.rest with
      | [] => none
      | c :: cs =>
        if c = quote then
          if quote = '\'' && cs.head? = some quote then do
            let (text, q) ← quoted quote n (p.skip 2)
            return (quote :: text, q)
          else some ([], p.skip 1)
        else if c = '\\' && quote = '"' then
          match (p.skip 1).break? with
          | some (_, q) => do
            let (breaks, q) ← (q.skipWhile isBlank).breaks 0 q.rest.length
            let (text, q) ← quoted quote n q
            return (breaks ++ text, q)
          | none => do
            let (d, width) ← escape cs
            let (text, q) ← quoted quote n (p.skip (width + 1))
            return (d :: text, q)
        else if isSpace c then do
          let (g, q) ← p.gap 0
          let (text, q) ← quoted quote n q
          return (g.text ++ text, q)
        else do
          let (text, q) ← quoted quote n (p.skip 1)
          return (c :: text, q)

end Cursor

/-- A word of a plain text: up to a space or a colon before a space, and inside brackets also up to
a comma or bracket, which no colon may stand before. -/
def plainWord (inBrackets : Bool) : List Char → Option (List Char)
  | [] => some []
  | c :: cs =>
    if isSpace c then some []
    else if inBrackets && c = ':' && cs.head?.any ",?[]\x7b\x7d".toList.contains then none
    else if (c = ':' && cs.head?.all isSpace)
        || (inBrackets && ",[]\x7b\x7d".toList.contains c) then some []
    else do return c :: (← plainWord inBrackets cs)

namespace Cursor

/-- A plain text of at most `n` words, whether breaks follow it, and the place behind them. It goes
on after the gap `g` unless a comment or a mark stands there; outside brackets all its lines reach
the column `level`. -/
def plain (inBrackets : Bool) (level : Nat) :
    Nat → Gap → Cursor → Option (List Char × Bool × Cursor)
  | 0, _, _ => none
  | n + 1, g, p => do
    let word ←
      if p.isAtMark || p.rest.head? = some '#' then some [] else plainWord inBrackets p.rest
    if word.isEmpty then return ([], !g.breaks.isEmpty, p)
    let (next, q) ← (p.skip word.length).gap level
    if !inBrackets && q.column < level then return (g.text ++ word, !next.breaks.isEmpty, q)
    let (text, breaks, q) ← plain inBrackets level n next q
    return (g.text ++ word ++ text, breaks, q)

end Cursor

inductive Ending where
  | strip
  | clip
  | keep

namespace Cursor

def ending? (p : Cursor) : Option Ending × Cursor :=
  match p.rest with
  | '+' :: _ => (some .keep, p.skip 1)
  | '-' :: _ => (some .strip, p.skip 1)
  | _ => (none, p)

def width? (p : Cursor) : Option Nat × Cursor :=
  match p.rest with
  | c :: _ => if c.isDigit then (some (c.toNat - 48), p.skip 1) else (none, p)
  | [] => (none, p)

/-- The ending and the width of the indentation of a block, zero if that is left open. Either may be
written first. -/
def blockHeader (p : Cursor) : Option (Ending × Nat × Cursor) := do
  let (before, p) := p.ending?
  let (width, p) := p.width?
  let (after, p) := if before.isNone then p.ending? else (none, p)
  if width = some 0 then none
  let p := (p.skipWhile isBlank).skipComment
  let p ← match p.break? with
    | some (_, q) => some q
    | none => if p.rest.isEmpty then some p else none
  return ((before.or after).getD .clip, width.getD 0, p)

def emptyLines (width : Nat) : Nat → Cursor → Option (List Char × Nat × Cursor)
  | 0, p => some ([], p.column, p)
  | n + 1, p => do
    let spaces := (p.rest.takeWhile (· = ' ')).length
    let p := p.skip (if width = 0 then spaces else min spaces (width - p.column))
    if (width = 0 || p.column < width) && p.rest.head? = some '\t' then none
    match p.break? with
    | none => return ([], p.column, p)
    | some (c, q) =>
      let (cs, widest, q) ← emptyLines width n q
      return (c :: cs, max p.column widest, q)

/-- The lines of a block, at most `n`, that are indented by `width`, and what stands behind the last
of them: its break and those of the empty lines. `first` and `breaks` stand before the next line;
a newline before it is folded unless that line or the one before starts with a blank. -/
def blockLines (isFolded : Bool) (width : Nat) :
    Nat → (first breaks : List Char) → (wasBlank : Bool) → Cursor →
      Option (List Char × List Char × List Char × Cursor)
  | 0, first, breaks, _, p => some ([], first, breaks, p)
  | n + 1, first, breaks, wasBlank, p =>
    if p.column ≠ width || p.rest.isEmpty then some ([], first, breaks, p)
    else do
      let blank := p.rest.head?.any isBlank
      let joined :=
        if isFolded && first = ['\n'] && !wasBlank && !blank then
          if breaks.isEmpty then [' '] else breaks
        else first ++ breaks
      let line := p.rest.takeWhile fun c => !isBreak c
      let p := p.skip line.length
      let (next, p) := match p.break? with
        | some (c, q) => ([c], q)
        | none => ([], p)
      let (more, _, p) ← emptyLines width p.rest.length p
      let (text, last, trailing, p) ← blockLines isFolded width n next more blank p
      return (joined ++ line ++ text, last, trailing, p)

def block (isFolded : Bool) (level : Nat) (p : Cursor) : Option (List Char × Cursor) := do
  let (ending, width, p) ← p.blockHeader
  let width := if width = 0 then 0 else level - 1 + width
  let (breaks, widest, p) ← emptyLines width p.rest.length p
  let width := if width = 0 then max (max widest level) 1 else width
  let (text, last, trailing, p) ← blockLines isFolded width (p.rest.length + 1) [] breaks false p
  return match ending with
    | .strip => (text, p)
    | .clip => (text ++ last, p)
    | .keep => (text ++ last ++ trailing, p)

end Cursor

def writeScalar (s : String) : String :=
  if s.startsWith "[" then "'" ++ s ++ "'" else s

end DocumentServer.Yaml
