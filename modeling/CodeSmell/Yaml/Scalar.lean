import CodeSmell.Text.CharRanges
import CodeSmell.Yaml.Cursor

/-!
# YAML scalars

Plain and quoted scalars may run over several lines. A single line break between two words of such a
scalar counts as a space, and of several breaks all but the first are kept; separators of lines and
paragraphs are kept as they are. In block style a plain scalar ends before a line that is not
indented more than the node around it. Block scalars keep their lines, or fold them, below a header.
-/

set_option autoImplicit false

namespace CodeSmell

namespace Yaml

/-! ## Gaps between words -/

/-- What stands between two words of a scalar. -/
structure Gap where
  /-- Blanks before any line break, latest first. -/
  blanks : List Char := []
  /-- Whether a line has ended. -/
  broken : Bool := false
  /-- The first line break; one that is escaped does not count. -/
  first : Option Char := none
  /-- Further line breaks, latest first. -/
  more : List Char := []

namespace Gap

/-- Whether there is nothing between the words. -/
def isEmpty (g : Gap) : Bool := !g.broken && g.blanks.isEmpty

/-- Adds a blank. Those at the start of a line do not count. -/
def blank (g : Gap) (c : Char) : Gap := if g.broken then g else { g with blanks := c :: g.blanks }

/-- Adds a line break. -/
def newline (g : Gap) (c : Char) : Gap :=
  if g.broken then { g with more := breakText c :: g.more }
  else { broken := true, first := some (breakText c) }

/-- The text that a gap stands for, added to characters that are kept latest first. -/
def addTo (g : Gap) (taken : List Char) : List Char :=
  if !g.broken then g.blanks ++ taken
  else if g.first = some '\n' then if g.more.isEmpty then ' ' :: taken else g.more ++ taken
  else g.more ++ (g.first.toList ++ taken)

end Gap

/-! ## Plain scalars -/

/-- Whether a plain scalar ends before these characters. -/
def endsPlain (flow : Bool) : List Char → Bool
  | ':' :: rest => endsWord rest
  | c :: _ => flow && [',', '?', '[', ']', '\x7b', '\x7d'].contains c
  | [] => true

/-- Whether a plain scalar can start with these characters. -/
def startsPlain (flow : Bool) : List Char → Bool
  | [] => false
  | c :: rest =>
    if c = '-' then !rest.head?.any isGap
    else if c = '?' || c = ':' then !flow && !endsWord rest
    else !(isGap c || isBreak c || ",[]\x7b\x7d#&*!|>'\"%@\x60".toList.contains c)

/-- Reads on in a plain scalar. Text whose column is less than `indent` behind a line break does not
belong to it. Also tells whether a line ended behind its last word. -/
def plainFrom (flow : Bool) (indent : Nat) (start : Cursor) (taken : List Char) (gap : Gap)
    (line column index : Nat) : List Char → Except Problem (String × Bool × Cursor)
  | [] => .ok (String.ofList taken.reverse, gap.broken, ⟨[], line, column, index⟩)
  | c :: rest =>
    let here : Cursor := ⟨c :: rest, line, column, index⟩
    if isBreak c then
      plainFrom flow indent start taken (gap.newline c) (line + 1) 0 (index + 1) rest
    else if isGap c then
      if c = '\t' && gap.broken && column < indent then
        here.fail start "found a tab character that violates indentation"
      else plainFrom flow indent start taken (gap.blank c) line (column + 1) (index + 1) rest
    else if (gap.broken && !flow && column < indent) ||
        (!gap.isEmpty && (c = '#' || here.atBoundary)) || endsPlain flow (c :: rest) then
      .ok (String.ofList taken.reverse, gap.broken, here)
    else
      plainFrom flow indent start (c :: gap.addTo taken) {} line (column + 1) (index + 1) rest

/-! ## Quoted scalars -/

/-- Reads on in a scalar in single quotes, behind the opening quote. -/
def singleFrom (start : Cursor) (taken : List Char) (gap : Gap) (line column index : Nat) :
    List Char → Except Problem (String × Cursor)
  | [] => Cursor.fail ⟨[], line, column, index⟩ start "found unexpected end of stream"
  | '\'' :: '\'' :: rest =>
    singleFrom start ('\'' :: gap.addTo taken) {} line (column + 2) (index + 2) rest
  | c :: rest =>
    let here : Cursor := ⟨c :: rest, line, column, index⟩
    if here.atBoundary then here.fail start "found unexpected document indicator"
    else if isBreak c then
      singleFrom start taken (gap.newline c) (line + 1) 0 (index + 1) rest
    else if isGap c then
      singleFrom start taken (gap.blank c) line (column + 1) (index + 1) rest
    else if c = '\'' then .ok (String.ofList (gap.addTo taken).reverse, here.next)
    else singleFrom start (c :: gap.addTo taken) {} line (column + 1) (index + 1) rest

/-- The character that an escape of one letter stands for. -/
def escaped? (c : Char) : Option Char :=
  [('0', '\x00'), ('a', '\x07'), ('b', '\x08'), ('t', '\t'), ('\t', '\t'), ('n', '\n'),
    ('v', '\x0b'), ('f', '\x0c'), ('r', '\r'), ('e', '\x1b'), (' ', ' '), ('"', '"'),
    ('\'', '\''), ('\\', '\\'), ('N', '\u0085'), ('_', '\u00a0'), ('L', '\u2028'),
    ('P', '\u2029')].lookup c

/-- The number of hexadecimal digits after the letter of an escape. -/
def escapeWidth? (c : Char) : Option Nat := [('x', 2), ('u', 4), ('U', 8)].lookup c

/-- What the next characters mean inside double quotes. -/
inductive QuotedMode where
  /-- Ordinary text. -/
  | text
  /-- Behind a backslash. -/
  | escape
  /-- In the digits of an escape: their value, and how many are still to come. -/
  | digits (value missing : Nat)

/-- Reads on in a scalar in double quotes, behind the opening quote. -/
def doubleFrom (start : Cursor) (taken : List Char) (gap : Gap) (line column index : Nat)
    (mode : QuotedMode) : List Char → Except Problem (String × Cursor)
  | [] =>
    let here : Cursor := ⟨[], line, column, index⟩
    match mode with
    | .text => here.fail start "found unexpected end of stream"
    | .escape => here.fail start "found unknown escape character"
    | .digits _ _ => here.fail start "did not find expected hexdecimal number"
  | c :: rest =>
    let here : Cursor := ⟨c :: rest, line, column, index⟩
    match mode with
    | .digits value missing =>
      match hexDigit? c with
      | none => here.fail start "did not find expected hexdecimal number"
      | some d =>
        let value := value * 16 + d
        if 1 < missing then
          doubleFrom start taken {} line (column + 1) (index + 1) (.digits value (missing - 1)) rest
        else if (0xD800 ≤ value && value ≤ 0xDFFF) || 0x10FFFF < value then
          here.fail start "found invalid Unicode character escape code"
        else
          doubleFrom start (Char.ofNat value :: taken) {} line (column + 1) (index + 1) .text rest
    | .escape =>
      if isBreak c then
        doubleFrom start (gap.addTo taken) { broken := true } (line + 1) 0 (index + 1) .text rest
      else match escaped? c, escapeWidth? c with
        | some d, _ =>
          doubleFrom start (d :: gap.addTo taken) {} line (column + 1) (index + 1) .text rest
        | none, some width =>
          doubleFrom start (gap.addTo taken) {} line (column + 1) (index + 1) (.digits 0 width) rest
        | none, none => here.fail start "found unknown escape character"
    | .text =>
      if here.atBoundary then here.fail start "found unexpected document indicator"
      else if isBreak c then
        doubleFrom start taken (gap.newline c) (line + 1) 0 (index + 1) .text rest
      else if isGap c then
        doubleFrom start taken (gap.blank c) line (column + 1) (index + 1) .text rest
      else if c = '"' then .ok (String.ofList (gap.addTo taken).reverse, here.next)
      else if c = '\\' then doubleFrom start taken gap line (column + 1) (index + 1) .escape rest
      else doubleFrom start (c :: gap.addTo taken) {} line (column + 1) (index + 1) .text rest

/-! ## Block scalars -/

/-- What happens to line breaks at the end of a block scalar. -/
inductive Chomping where
  | strip
  | clip
  | keep
deriving DecidableEq

/-- The header of a block scalar. -/
structure BlockHeader where
  literal : Bool
  chomping : Chomping := .clip
  /-- The indentation of the lines relative to the node around the scalar, if it is given. -/
  increment : Option Nat := none

/-- What has been read of a block scalar: the text latest first, the line break behind its last
line, the breaks of the blank lines behind that, latest first, and whether the last line starts with
a blank. -/
structure BlockText where
  taken : List Char := []
  ending : Option Char := none
  blankLines : List Char := []
  indented : Bool := false

namespace BlockText

/-- Starts a line with its first character. Folding turns a single break between two lines that both
start with a word into a space. -/
def startLine (literal : Bool) (b : BlockText) (c : Char) : BlockText :=
  let joined :=
    if !literal && !b.indented && !isGap c && b.ending = some '\n' then
      if b.blankLines.isEmpty then ' ' :: b.taken else b.taken
    else b.ending.toList ++ b.taken
  { taken := c :: (b.blankLines ++ joined), indented := isGap c }

/-- The text of a block scalar behind its last line. -/
def finish (chomping : Chomping) (b : BlockText) : String :=
  let ended := if chomping = .strip then b.taken else b.ending.toList ++ b.taken
  String.ofList (if chomping = .keep then b.blankLines ++ ended else ended).reverse

end BlockText

/-- The indentation of the lines of a block scalar. -/
inductive BlockIndent where
  | known (column : Nat)
  /-- Still to be found: the deepest column of the blank lines so far. -/
  | unknown (deepest : Nat)

namespace BlockIndent

/-- Whether a column is still in front of the text of a line. -/
def isMargin (column : Nat) : BlockIndent → Bool
  | .known indent => column < indent
  | .unknown _ => true

/-- What is known at a place where the spaces of a line end. -/
def meet (column : Nat) : BlockIndent → BlockIndent
  | .known indent => .known indent
  | .unknown deepest => .unknown (max deepest column)

/-- The indentation at the first line that is not blank. `inner` is one more than the indentation of
the node around the scalar. -/
def settle (inner : Nat) : BlockIndent → Nat
  | .known indent => indent
  | .unknown deepest => max deepest (max inner 1)

end BlockIndent

/-- Reads on in a block scalar, inside a line or in the margin before one. -/
def blockFrom (header : BlockHeader) (inner : Nat) (start : Cursor) (indent : BlockIndent)
    (b : BlockText) (inLine : Bool) (line column index : Nat) :
    List Char → Except Problem (String × Cursor)
  | [] => .ok (b.finish header.chomping, ⟨[], line, column, index⟩)
  | c :: rest =>
    let here : Cursor := ⟨c :: rest, line, column, index⟩
    if inLine then
      if isBreak c then
        blockFrom header inner start indent { b with ending := some (breakText c) } false
          (line + 1) 0 (index + 1) rest
      else
        blockFrom header inner start indent { b with taken := c :: b.taken } true
          line (column + 1) (index + 1) rest
    else if indent.isMargin column && c = ' ' then
      blockFrom header inner start indent b false line (column + 1) (index + 1) rest
    else if indent.isMargin column && c = '\t' then
      here.fail start "found a tab character where an indentation space is expected"
    else if isBreak c then
      blockFrom header inner start (indent.meet column)
        { b with blankLines := breakText c :: b.blankLines } false (line + 1) 0 (index + 1) rest
    else
      let depth := (indent.meet column).settle inner
      if column = depth then
        blockFrom header inner start (.known depth) (b.startLine header.literal c) true
          line (column + 1) (index + 1) rest
      else .ok (b.finish header.chomping, here)

/-- Reads the marks of a header: a sign for the breaks at the end and a digit for the indentation,
in either order. -/
def headerMarks (start : Cursor) (h : BlockHeader) (c : Cursor) :
    Except Problem (BlockHeader × Cursor) :=
  let sign? (d : Char) : Option Chomping := [('+', .keep), ('-', .strip)].lookup d
  let digit (h : BlockHeader) (c : Cursor) : Except Problem (BlockHeader × Cursor) :=
    match c.rest with
    | '0' :: _ => c.fail start "found an indentation indicator equal to 0"
    | d :: _ => .ok (if d.isDigit then
        ({ h with increment := some (d.toNat - '0'.toNat) }, c.next) else (h, c))
    | [] => .ok (h, c)
  let sign (h : BlockHeader) (c : Cursor) : BlockHeader × Cursor :=
    match c.rest.head?.bind sign? with
    | some chomping => ({ h with chomping := chomping }, c.next)
    | none => (h, c)
  let (signed, behind) := sign h c
  if behind.column = c.column then (digit h c).map fun (h, c) => sign h c
  else digit signed behind

/-- Reads a block scalar at its header. `inner` is one more than the indentation of the node around
it. -/
def readBlockScalar (inner : Nat) (c : Cursor) : Except Problem (String × Cursor) := do
  let (header, behind) ← headerMarks c ⟨c.rest.head? = some '|', .clip, none⟩ c.next
  let words := behind.dropWhile isGap
  let last := if words.rest.head? = some '#' then words.dropWhile fun _ => true else words
  match last.rest with
  | [] => .ok ("", last)
  | d :: _ =>
    if isBreak d then
      let indent := match header.increment with
        | some n => BlockIndent.known (inner - 1 + n)
        | none => BlockIndent.unknown 0
      let first := last.next
      blockFrom header inner c indent {} false first.line first.column first.index first.rest
    else last.fail c "did not find expected comment or line break"

end Yaml

end CodeSmell
