import CodeSmell.Yaml.Node

/-!
# Places in a YAML text

A cursor is what remains of a text and the place where it starts. Lines and columns are counted from
zero. A text is prepared before it is read: carriage returns become line feeds, so that a line break
is a single character.
-/

set_option autoImplicit false

namespace CodeSmell

namespace Yaml

/-- What remains to be read, and where it starts: the line, the column, and the number of characters
in front of it. -/
structure Cursor where
  rest : List Char
  line : Nat := 0
  column : Nat := 0
  index : Nat := 0

/-- Whether a character is a blank within a line. -/
def isGap (c : Char) : Bool := c = ' ' || c = '\t'

/-- Whether a character ends a line. -/
def isBreak (c : Char) : Bool :=
  c = '\n' || c = '\r' || c = '\u0085' || c = '\u2028' || c = '\u2029'

/-- The line break that a scalar has where the text has one: separators of lines and of paragraphs
are kept, and all else is a line feed. -/
def breakText (c : Char) : Char := if c = '\u2028' || c = '\u2029' then c else '\n'

/-- The character that tells the order of bytes at the start of a text. -/
def byteOrderMark : Char := '\ufeff'

/-- Whether a text is at its end, at the end of a line or at a blank. -/
def endsWord : List Char → Bool
  | [] => true
  | c :: _ => isGap c || isBreak c

/-- Whether a line starts with three equal marks that stand alone: hyphens start a document and
points end it. -/
def isBoundary : List Char → Bool
  | '-' :: '-' :: '-' :: rest => endsWord rest
  | '.' :: '.' :: '.' :: rest => endsWord rest
  | _ => false

/-- Gives carriage returns, alone or before a line feed, the form of a line feed. -/
def unifyBreaks : List Char → List Char
  | '\r' :: '\n' :: rest => '\n' :: unifyBreaks rest
  | c :: rest => (if c = '\r' then '\n' else c) :: unifyBreaks rest
  | [] => []

/-- Whether a character may stand in a text at all. -/
def isAllowed (c : Char) : Bool :=
  let n := c.toNat
  c = '\t' || c = '\n' || c = '\r' || (0x20 ≤ n && n ≤ 0x7E) || n = 0x85 ||
    (0xA0 ≤ n && n ≤ 0xD7FF) || (0xE000 ≤ n && n ≤ 0xFFFD) || 0x10000 ≤ n

namespace Cursor

/-- The cursor behind the next character. -/
def next (c : Cursor) : Cursor :=
  match c.rest with
  | [] => c
  | d :: rest =>
    if isBreak d then ⟨rest, c.line + 1, 0, c.index + 1⟩
    else ⟨rest, c.line, c.column + 1, c.index + 1⟩

/-- The cursor behind some characters of the present line. -/
def drop (c : Cursor) (count : Nat) : Cursor :=
  ⟨c.rest.drop count, c.line, c.column + count, c.index + count⟩

/-- The cursor behind the characters of the present line that satisfy a condition. -/
def dropWhile (c : Cursor) (p : Char → Bool) : Cursor :=
  c.drop (c.rest.takeWhile fun d => p d && !isBreak d).length

/-- Whether a mark that bounds documents stands here. -/
def atBoundary (c : Cursor) : Bool := c.column = 0 && isBoundary c.rest

/-- A problem met here while reading something that started at `start`. -/
def fail {α : Type} (c start : Cursor) (text : String) : Except Problem α :=
  .error ⟨if start.line ≠ 0 then start.line + 1 else if c.line ≠ 0 then c.line + 1 else 0, text⟩

end Cursor

end Yaml

end CodeSmell
