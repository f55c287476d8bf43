import CodeSmell.Number.Floating
import CodeSmell.Number.Integer
import CodeSmell.Text.Blank
import CodeSmell.Text.Quoted
import CodeSmell.Tree.Basic

/-!
# Reading trees

A tree is written as `(tag:line child ...)`. The line may be left out, and is then that of the
enclosing node. Elements are separated by blanks, and a semicolon starts a comment that runs to the
end of its line. Several trees in one text become the children of a `block` node.

The reader is a machine that takes one character at a time: `step` says what a character does and
`finish` what the end of the text means. The machine's position is therefore always that of the
characters taken so far, and reading a text piece by piece is reading it as a whole.
-/

set_option autoImplicit false

namespace CodeSmell

/-- A place in a text. Lines and columns are counted from one, columns in characters. -/
structure Position where
  line : Nat := 1
  column : Nat := 1
deriving DecidableEq, Repr

/-- The place behind a character. -/
def Position.after (p : Position) (c : Char) : Position :=
  if c = '\n' then ⟨p.line + 1, 1⟩ else ⟨p.line, p.column + 1⟩

/-- Why a text is no tree. -/
inductive SyntaxFault where
  | notATree (found : Char)
  | missingTag
  | badLine (head : String)
  | badString
  | unterminatedString
  | unterminatedRegexp
  | unterminatedNode (tag : Text)
deriving DecidableEq, Repr

/-- The wording of a fault. -/
def SyntaxFault.message : SyntaxFault → String
  | .notATree found =>
    "expected '(' at top level, found " ++ String.ofList (Quoted.encodeSingle found)
  | .missingTag => "expected node type"
  | .badLine head => "invalid line annotation " ++ String.ofList (Quoted.encode head)
  | .badString => "invalid string literal: invalid syntax"
  | .unterminatedString => "unterminated string literal"
  | .unterminatedRegexp => "unterminated regexp literal"
  | .unterminatedNode tag => "unterminated node " ++ String.ofList (Quoted.encode tag)

/-- A fault and the place where the reader met it. -/
structure SyntaxError where
  position : Position
  fault : SyntaxFault
deriving DecidableEq, Repr

/-- The wording of an error in a file. -/
def SyntaxError.message (file : String) (e : SyntaxError) : String :=
  s!"{file}:{e.position.line}:{e.position.column}: {e.fault.message}"

namespace Reader

/-- A node whose closing parenthesis has not been met, with its children latest first. -/
structure Frame where
  tag : Tag
  line : Int
  children : List Tree

/-- What the machine is reading. Characters that were taken are kept latest first. -/
inductive Mode where
  /-- Between two elements. -/
  | blank
  /-- In a comment, perhaps one between an opening parenthesis and its tag. -/
  | comment (beforeTag : Bool)
  /-- Behind an opening parenthesis, before the tag. -/
  | opened
  /-- In the tag and line of a node. -/
  | head (taken : List Char)
  /-- In a word. -/
  | word (taken : List Char)
  /-- Behind a slash that starts either a word or a regular expression. -/
  | slash
  /-- In a regular expression, perhaps behind a backslash. -/
  | regexp (taken : List Char) (escaped : Bool)
  /-- In a string literal, perhaps behind a backslash. -/
  | string (taken : List Char) (escaped : Bool)

/-- The machine: the place reached, the open nodes innermost first, and the finished trees latest
first. -/
structure State where
  position : Position := {}
  frames : List Frame := []
  roots : List Tree := []
  mode : Mode := .blank

/-- Whether a character ends a word. -/
def isDelimiter (c : Char) : Bool :=
  isBlank c || c == '(' || c == ')' || c == '"' || c == ';'

end Reader

/-- The atom that a word denotes: the empty slot, an integer of 64 bits, another number of finite
value, or else a symbol. -/
def Atom.ofWord (word : List Char) : Atom :=
  if word = ['n', 'i', 'l'] then .nil
  else if (Decimal.readInt64? word).isSome then .int (String.ofList word)
  else if word.any Char.isDigit && Floating.isLiteral word then .float (String.ofList word)
  else .sym (String.ofList word)

namespace Reader

/-- A new node from the characters of its head, latest first. What follows the last colon is the
line, unless nothing stands before that colon; without a colon the line is `inherited`. -/
def Frame.ofHead? (inherited : Int) (taken : List Char) : Option Frame :=
  match taken.dropWhile (· != ':') with
  | _ :: c :: before =>
    (Decimal.readInt64? (taken.takeWhile (· != ':')).reverse).map fun line =>
      ⟨Tag.ofName (Text.ofChars (c :: before).reverse), line, []⟩
  | _ => some ⟨Tag.ofName (Text.ofChars taken.reverse), inherited, []⟩

/-- The finished node of a frame. -/
def Frame.close (f : Frame) : Tree := .node f.tag f.line f.children.reverse

namespace State

/-- The machine stopped by a fault at its present place. -/
def fail {α : Type} (s : State) (fault : SyntaxFault) : Except SyntaxError α :=
  .error ⟨s.position, fault⟩

/-- The machine behind one more character. -/
def advance (s : State) (c : Char) : State := { s with position := s.position.after c }

/-- The machine in another mode. -/
def enter (s : State) (mode : Mode) : State := { s with mode := mode }

/-- Adds a finished tree to the innermost open node, or to the finished trees. -/
def add (s : State) (t : Tree) : State :=
  match s.frames with
  | f :: outer =>
    { s with frames := { f with children := t :: f.children } :: outer, mode := .blank }
  | [] => { s with roots := t :: s.roots, mode := .blank }

/-- Closes the innermost open node. -/
def close (s : State) : State :=
  match s.frames with
  | f :: outer => { s with frames := outer }.add f.close
  | [] => s

/-- Opens a node with the head just read. -/
def openNode (s : State) (taken : List Char) : Except SyntaxError State :=
  match Frame.ofHead? ((s.frames.head?.map Frame.line).getD 0) taken with
  | some f => .ok { s with frames := f :: s.frames, mode := .blank }
  | none => s.fail (.badLine (String.ofList taken.reverse))

/-- Takes a character between two elements. -/
def stepBlank (s : State) (c : Char) : Except SyntaxError State :=
  if c = ';' then .ok ((s.advance c).enter (.comment false))
  else if isBlank c then .ok (s.advance c)
  else if c = '(' then .ok ((s.advance c).enter .opened)
  else if s.frames.isEmpty then s.fail (.notATree c)
  else if c = ')' then .ok (s.advance c).close
  else if c = '"' then .ok ((s.advance c).enter (.string [] false))
  else if c = '/' then .ok ((s.advance c).enter .slash)
  else .ok ((s.advance c).enter (.word [c]))

/-- Takes a character of a regular expression. -/
def stepRegexp (s : State) (taken : List Char) (escaped : Bool) (c : Char) : State :=
  if escaped then (s.advance c).enter (.regexp (c :: taken) false)
  else if c = '/' then (s.advance c).add (.atom (.re (String.ofList taken.reverse)))
  else (s.advance c).enter (.regexp (c :: taken) (c == '\\'))

/-- Takes a character of a string literal. -/
def stepString (s : State) (taken : List Char) (escaped : Bool) (c : Char) :
    Except SyntaxError State :=
  if escaped then .ok ((s.advance c).enter (.string (c :: taken) false))
  else if c = '"' then
    match Quoted.decode taken.reverse with
    | some value => .ok ((s.advance c).add (.atom (.str value)))
    | none => (s.advance c).fail .badString
  else .ok ((s.advance c).enter (.string (c :: taken) (c == '\\')))

/-- Takes a character. -/
def step (s : State) (c : Char) : Except SyntaxError State :=
  match s.mode with
  | .blank => s.stepBlank c
  | .comment beforeTag =>
    .ok (if c = '\n' then (s.advance c).enter (if beforeTag then .opened else .blank)
      else s.advance c)
  | .opened =>
    if c = ';' then .ok ((s.advance c).enter (.comment true))
    else if isBlank c then .ok (s.advance c)
    else if c = '(' ∨ c = ')' then s.fail .missingTag
    else if c = '"' then do (← s.openNode []).stepBlank c
    else .ok ((s.advance c).enter (.head [c]))
  | .head taken =>
    if isDelimiter c then do (← s.openNode taken).stepBlank c
    else .ok ((s.advance c).enter (.head (c :: taken)))
  | .word taken =>
    if isDelimiter c then (s.add (.atom (Atom.ofWord taken.reverse))).stepBlank c
    else .ok ((s.advance c).enter (.word (c :: taken)))
  | .slash =>
    if isBlank c ∨ c = ')' then (s.add (.atom (Atom.ofWord ['/']))).stepBlank c
    else .ok (s.stepRegexp [] false c)
  | .regexp taken escaped => .ok (s.stepRegexp taken escaped c)
  | .string taken escaped => s.stepString taken escaped c

/-- The tree that the finished trees make up: a single one itself, others as a block. -/
def result (s : State) : Tree :=
  match s.roots with
  | [t] => t
  | ts => .node (.known .block) 0 ts.reverse

/-- Ends the text while no element is being read. -/
def finishBlank (s : State) : Except SyntaxError Tree :=
  match s.frames with
  | f :: _ => s.fail (.unterminatedNode f.tag.name)
  | [] => .ok s.result

/-- Ends the text. -/
def finish (s : State) : Except SyntaxError Tree :=
  match s.mode with
  | .blank | .comment false | .word _ | .slash => s.finishBlank
  | .comment true | .opened => s.fail .missingTag
  | .head taken => do (← s.openNode taken).finishBlank
  | .regexp _ _ => s.fail .unterminatedRegexp
  | .string _ _ => s.fail .unterminatedString

end State

end Reader

/-- Reads the trees of a text. -/
def Tree.read (source : List Char) : Except SyntaxError Tree := do
  (← source.foldlM Reader.State.step {}).finish

/-- The characters of a source text. A byte that is part of no character is read as the replacement
character. -/
def Text.sourceChars (t : Text) : List Char := t.glyphs.map fun g => g.char?.getD '\uFFFD'

end CodeSmell
