namespace DocumentServer.Yaml

def isBlank (c : Char) : Bool := c = ' ' || c = '\t'

def isBreak (c : Char) : Bool := "\n\r\x85\u2028\u2029".toList.contains c

def isSpace (c : Char) : Bool := isBlank c || isBreak c

def isNameChar (c : Char) : Bool := c.isAlphanum || c = '_' || c = '-'

structure Cursor where
  rest : List Char
  /-- How many characters are behind. -/
  index : Nat := 0
  line : Nat := 0
  column : Nat := 0

namespace Cursor

def skip (n : Nat) (p : Cursor) : Cursor :=
  ⟨p.rest.drop n, p.index + n, p.line, p.column + n⟩

def skipWhile (f : Char → Bool) (p : Cursor) : Cursor := p.skip (p.rest.takeWhile f).length

def endsAfter (n : Nat) (p : Cursor) : Bool := (p.rest.drop n).head?.all isSpace

def skipComment (p : Cursor) : Cursor :=
  if p.rest.head? = some '#' then p.skipWhile fun c => !isBreak c else p

/-- What a break stands for, and the place behind it. Most breaks stand for a newline, also a
carriage return with a newline behind it. -/
def break? (p : Cursor) : Option (Char × Cursor) :=
  match p.rest with
  | '\r' :: '\n' :: cs => some ('\n', ⟨cs, p.index + 2, p.line + 1, 0⟩)
  | c :: cs =>
    if isBreak c then
      some (if c = '\u2028' || c = '\u2029' then c else '\n', ⟨cs, p.index + 1, p.line + 1, 0⟩)
    else none
  | [] => none

def isAtMark (p : Cursor) : Bool :=
  p.column = 0 && p.endsAfter 3
    && (p.rest.take 3 = ['-', '-', '-'] || p.rest.take 3 = ['.', '.', '.'])

end Cursor

/-- What stands between two words: blanks, and the breaks after them. -/
structure Gap where
  blanks : List Char
  breaks : List Char

namespace Gap

def none : Gap := ⟨[], []⟩

/-- The text between the words: a newline alone is folded into a space, and more breaks lose the
first newline. -/
def text (g : Gap) : List Char :=
  match g.breaks with
  | [] => g.blanks
  | ['\n'] => [' ']
  | '\n' :: breaks => breaks
  | breaks => breaks

end Gap

namespace Cursor

/-- Breaks, at most `n`, with blanks after each of them, but no tab before the column `level`. -/
def breaks (level : Nat) : Nat → Cursor → Option (List Char × Cursor)
  | 0, p => some ([], p)
  | n + 1, p =>
    match p.break? with
    | none => some ([], p)
    | some (c, p) => do
      let blanks := p.rest.takeWhile isBlank
      if (blanks.take level).contains '\t' then none
      let (cs, p) ← breaks level n (p.skip blanks.length)
      return (c :: cs, p)

def gap (level : Nat) (p : Cursor) : Option (Gap × Cursor) := do
  let blanks := p.rest.takeWhile isBlank
  let (breaks, q) ← breaks level p.rest.length (p.skip blanks.length)
  return (⟨blanks, breaks⟩, q)

end Cursor

end DocumentServer.Yaml
