import CodeSmell.Text.Base64
import CodeSmell.Yaml.Cursor
import CodeSmell.Yaml.Resolution

/-!
# Writing YAML

Documents are written in block style with four columns of indentation for each level; empty
collections are written as brackets. A text is written plain where it would be read back as itself,
and otherwise in quotes or, if it has several lines, as a literal block. One that is not the UTF-8
form of characters is written as bytes.
-/

set_option autoImplicit false

namespace CodeSmell

namespace Yaml

/-- What can be written. -/
inductive Value where
  | int (n : Int)
  | bool (b : Bool)
  | text (t : Text)
  | list (items : List Text)
  | table (fields : List (Text × Value))

/-! ## Ways to write a text -/

/-- Whether a character can be written without an escape. -/
def isPrintable (c : Char) : Bool :=
  let n := c.toNat
  n = 0x0A || (0x20 ≤ n && n ≤ 0x7E) || (0xA0 ≤ n && n ≤ 0xFFFD && n ≠ 0xFEFF)

/-- Whether the characters behind a mark make it an indicator: nothing or a blank follows. -/
def followedByGap : List Char → Bool
  | [] => true
  | c :: _ => c = ' ' || c = '\t'

/-- Whether a text starts with an indicator. -/
def startsWithIndicator : List Char → Bool
  | [] => false
  | c :: rest =>
    "#,[]\x7b\x7d&*!|>'\"%@\x60".toList.contains c ||
      ((c = '?' || c = ':' || c = '-') && followedByGap rest) ||
      ['-', '-', '-'].isPrefixOf (c :: rest) || ['.', '.', '.'].isPrefixOf (c :: rest)

/-- Whether an indicator stands inside a text, behind the character `before`. -/
def hasIndicatorAfter (before : Char) : List Char → Bool
  | [] => false
  | c :: rest =>
    (c = ':' && followedByGap rest) ||
      (c = '#' && (before = ' ' || before = '\t' || isBreak before)) ||
      hasIndicatorAfter c rest

/-- Whether a text has an indicator. -/
def hasIndicator : List Char → Bool
  | [] => false
  | c :: rest => startsWithIndicator (c :: rest) || hasIndicatorAfter c rest

/-- Whether a character of one kind stands right before one of another kind. -/
def hasPair (first second : Char → Bool) : List Char → Bool
  | a :: b :: rest => (first a && second b) || hasPair first second (b :: rest)
  | _ => false

/-- Whether a text has a space right before a line break. -/
def hasSpaceBreak : List Char → Bool := hasPair (· = ' ') isBreak

/-- Whether a text has a character that needs an escape. -/
def hasSpecial (cs : List Char) : Bool := cs.any fun c => c ≠ '\t' && !isPrintable c

/-- Whether a text can stand in single quotes. -/
def allowsSingle (cs : List Char) : Bool :=
  !hasPair isBreak (· = ' ') cs && !hasSpaceBreak cs && !cs.contains '\t' && !hasSpecial cs

/-- Whether a text can stand without quotes, as far as its characters are concerned. -/
def allowsPlain (cs : List Char) : Bool :=
  let isEdge (c : Option Char) : Bool := c.any fun c => c = ' ' || isBreak c
  allowsSingle cs && !isEdge cs.head? && !isEdge cs.getLast? && !cs.any isBreak && !hasIndicator cs

/-- Whether a text can be written as a literal block. -/
def allowsBlock (cs : List Char) : Bool :=
  !cs.isEmpty && cs.getLast? ≠ some ' ' && !hasSpaceBreak cs && !hasSpecial cs

/-- Whether a text is a number in base sixty, which older readers know. -/
def isBaseSixty (cs : List Char) : Bool :=
  let part (cs : List Char) : Bool :=
    match cs with
    | [d] => d.isDigit
    | [t, d] => '0' ≤ t && t ≤ '5' && d.isDigit
    | _ => false
  let rec parts : Nat → List Char → Bool
    | 0, _ => false
    | fuel + 1, rest =>
      match rest with
      | ':' :: rest =>
        let digits := rest.takeWhile Char.isDigit
        part digits && match rest.dropWhile Char.isDigit with
          | [] => true
          | '.' :: places => places.all fun c => c.isDigit || c = '_'
          | more => parts fuel more
      | _ => false
  match Floating.dropSign cs with
  | d :: rest => d.isDigit && parts rest.length (rest.dropWhile fun c => c.isDigit || c = '_')
  | [] => false

/-- Whether a text is a truth value that older readers know. -/
def isOldBool (s : String) : Bool := yesWords.contains s || noWords.contains s

/-- Whether a text would be read back as a text. -/
def readsAsText (s : String) : Bool :=
  match Meaning.ofPlain s with
  | .string => !isBaseSixty s.toList && !isOldBool s
  | _ => false

/-! ## Scalars -/

/-- A number in hexadecimal notation with a given number of digits. -/
def hexText (width n : Nat) : String :=
  let digits := (Nat.toDigits 16 n).map Char.toUpper
  String.ofList (List.replicate (width - digits.length) '0' ++ digits)

/-- The letters of the escapes of one letter. -/
def escapeLetter? (c : Char) : Option Char :=
  [('\x00', '0'), ('\x07', 'a'), ('\x08', 'b'), ('\t', 't'), ('\n', 'n'), ('\x0b', 'v'),
    ('\x0c', 'f'), ('\r', 'r'), ('\x1b', 'e'), ('"', '"'), ('\\', '\\'), ('\u0085', 'N'),
    ('\u00a0', '_'), ('\u2028', 'L'), ('\u2029', 'P')].lookup c

/-- The escape of a character. -/
def escape (c : Char) : String :=
  match escapeLetter? c with
  | some letter => "\\" ++ letter.toString
  | none =>
    let n := c.toNat
    if n ≤ 0xFF then "\\x" ++ hexText 2 n
    else if n ≤ 0xFFFF then "\\u" ++ hexText 4 n
    else "\\U" ++ hexText 8 n

/-- Whether a character stands for itself inside double quotes. -/
def isVerbatim (c : Char) : Bool := isPrintable c && !isBreak c && c ≠ '"' && c ≠ '\\'

/-- A text in double quotes. If it starts with a byte order mark, every character is escaped. -/
def doubleQuoted (cs : List Char) : String :=
  let marked := cs.head? = some byteOrderMark
  let chars := cs.map fun c => if isVerbatim c && !marked then c.toString else escape c
  "\"" ++ String.join chars ++ "\""

/-- Columns of indentation. -/
def spaces (n : Nat) : String := String.ofList (List.replicate n ' ')

/-- The characters of a text in single quotes. A line behind a separator starts at column `indent`.
-/
def singleChars (indent : Nat) (atStart : Bool) : List Char → String
  | [] => ""
  | c :: rest =>
    if isBreak c then c.toString ++ singleChars indent true rest
    else
      (if atStart then spaces indent else "") ++ (if c = '\'' then "''" else c.toString) ++
        singleChars indent false rest

/-- A text in single quotes. -/
def singleQuoted (indent : Nat) (cs : List Char) : String :=
  "'" ++ singleChars indent false cs ++ "'"

/-- The marks of a literal block: the indentation where the text starts with a blank, and what is to
happen to line breaks at the end. -/
def literalMarks (cs : List Char) : String :=
  (if cs.head?.any fun c => c = ' ' || isBreak c then "4" else "") ++
    match cs.reverse with
    | [] => "-"
    | c :: before =>
      if !isBreak c then "-"
      else match before with
        | [] => "+"
        | d :: _ => if isBreak d then "+" else ""

/-- The lines of a literal block behind its marks. `atStart` says that a line starts here. -/
def literalLines (indent : Nat) (atStart opened : Bool) : List Char → String
  | [] => ""
  | c :: rest =>
    if isBreak c then c.toString ++ literalLines indent true false rest
    else if atStart then
      (if opened then "\n" else "") ++ spaces indent ++ c.toString ++
        literalLines indent false false rest
    else c.toString ++ literalLines indent false false rest

/-- A text without line breaks, or whose only breaks are separators. Lines behind separators start
at column `indent`. -/
def flatText (indent : Nat) (s : String) : String :=
  let cs := s.toList
  if !readsAsText s then doubleQuoted cs
  else if allowsPlain cs then s
  else if allowsSingle cs then singleQuoted indent cs
  else doubleQuoted cs

/-- A text with the line break behind it. Lines of a literal block start at column `indent`. -/
def scalarLine (indent : Nat) (s : String) : String :=
  let cs := s.toList
  if cs.contains '\n' then
    if allowsBlock cs then
      let body := "|" ++ literalMarks cs ++ literalLines indent true true cs
      if cs.getLast?.any isBreak then body else body ++ "\n"
    else doubleQuoted cs ++ "\n"
  else flatText indent s ++ "\n"

/-- Whether a text can be a key without a mark in front: it has one line and is not too long. -/
def isSimpleKey (s : String) : Bool := !s.toList.any isBreak && s.utf8ByteSize ≤ 128

/-- The mark of bytes. -/
def binaryMark : String := "!!binary "

/-- A text or its bytes, with the line break behind it. Further lines start at column `indent`. -/
def textLine (indent : Nat) (t : Text) : String :=
  match t.toString? with
  | some s => scalarLine indent s
  | none =>
    let cs := Base64.encode t
    binaryMark ++
      if cs.contains '\n' then scalarLine indent (String.ofList cs) else String.ofList cs ++ "\n"

/-- A text or its bytes as a key that needs no mark in front. -/
def simpleKey? (indent : Nat) (t : Text) : Option String :=
  match t.toString? with
  | some s => if isSimpleKey s then some (flatText indent s) else none
  | none =>
    let cs := Base64.encode t
    if cs.contains '\n' then none else some (binaryMark ++ String.ofList cs)

/-! ## Documents -/

mutual
/-- What stands behind the colon of an entry at column `indent`, with the line break at its end. The
first item of a collection goes to a line of its own behind a key, and stays on the line of a colon
that stands alone. -/
def Value.write (indent : Nat) (alone : Bool) : Value → String
  | .int n => " " ++ toString n ++ "\n"
  | .bool b => " " ++ (if b then "true" else "false") ++ "\n"
  | .text t => " " ++ textLine (indent + 4) t
  | .list [] => " []\n"
  | .list (item :: items) =>
    (if alone then spaces 3 else "\n" ++ spaces (indent + 4)) ++ "- " ++
      textLine (indent + 6) item ++
      String.join (items.map fun t => spaces (indent + 4) ++ "- " ++ textLine (indent + 6) t)
  | .table [] => " \x7b\x7d\n"
  | .table (field :: fields) =>
    (if alone then spaces 3 else "\n" ++ spaces (indent + 4)) ++ writeField (indent + 4) field ++
      writeFields (indent + 4) fields

/-- An entry whose first column is `indent`, without the indentation of its first line. A key that
is not simple has a mark in front, and its colon stands on a line of its own. -/
def writeField (indent : Nat) : Text × Value → String
  | (name, value) =>
    match simpleKey? indent name with
    | some key => key ++ ":" ++ value.write indent false
    | none => "? " ++ textLine (indent + 4) name ++ spaces indent ++ ":" ++ value.write indent true

/-- Entries at column `indent`. -/
def writeFields (indent : Nat) : List (Text × Value) → String
  | [] => ""
  | field :: fields => spaces indent ++ writeField indent field ++ writeFields indent fields
end

end Yaml

end CodeSmell
