import CodeSmell.Pattern.Property
import CodeSmell.Pattern.Reduction

/-!
# Reading regular expressions

The notation has alternatives, groups, repetitions, character classes, named classes, escapes,
quoted stretches and flags for case, lines and the dot. Look-around and back references do not
exist. A pattern that cannot be read is refused with the first fault from the left and the stretch
of the pattern at fault. A byte that is part of no character is such a fault.

What is read is put together in reduced form, and each part is held against the bounds on size and
height when it is complete.
-/

set_option autoImplicit false

namespace CodeSmell

/-- Why a pattern cannot be read. -/
inductive RegexFault where
  | charRange
  | escape
  | namedCapture
  | perlOperator
  | repeatOperator
  | repeatSize
  | missingBracket
  | missingParen
  | missingRepeatArgument
  | trailingBackslash
  | unexpectedParen
  | invalidUtf8
  | tooLarge
  | tooDeep
deriving DecidableEq, Repr

/-- The wording of a fault. -/
def RegexFault.message : RegexFault → String
  | .charRange => "invalid character class range"
  | .escape => "invalid escape sequence"
  | .namedCapture => "invalid named capture"
  | .perlOperator => "invalid or unsupported Perl syntax"
  | .repeatOperator => "invalid nested repetition operator"
  | .repeatSize => "invalid repeat count"
  | .missingBracket => "missing closing ]"
  | .missingParen => "missing closing )"
  | .missingRepeatArgument => "missing argument to repetition operator"
  | .trailingBackslash => "trailing backslash at end of expression"
  | .unexpectedParen => "unexpected )"
  | .invalidUtf8 => "invalid UTF-8"
  | .tooLarge => "expression too large"
  | .tooDeep => "expression nests too deeply"

/-- A fault and the stretch of the pattern that has it. -/
structure RegexError where
  fault : RegexFault
  stretch : Text
deriving DecidableEq, Repr

/-- The wording of an error. -/
def RegexError.message (e : RegexError) : Text :=
  s!"error parsing regexp: {e.fault.message}: \x60" ++ e.stretch ++ "\x60"

namespace RegexReader

/-- What was read, and the characters behind it. -/
abbrev Reading (α : Type) := Except RegexError (α × List Char)

/-- A fault at a stretch of the pattern. -/
def fail {α : Type} (fault : RegexFault) (stretch : List Char) : Except RegexError α :=
  .error ⟨fault, Text.ofChars stretch⟩

/-- What of a pattern stands before the rest that is still to be read. -/
def before (whole rest : List Char) : List Char := whole.take (whole.length - rest.length)

/-- Flags that are set while reading. -/
structure Flags where
  foldCase : Bool := false
  multiLine : Bool := false
  dotAll : Bool := false

/-! ## Escapes -/

/-- Whether a character is an octal digit. -/
def isOctal (c : Char) : Bool := '0' ≤ c && c ≤ '7'

/-- Reads hexadecimal digits up to a closing brace; `whole` starts at the backslash. -/
def readBracedHex (whole : List Char) (digits value : Nat) : List Char → Reading Nat
  | [] => fail .escape whole
  | c :: rest =>
    if c = '\x7d' then
      if digits = 0 then fail .escape (before whole rest) else .ok (value, rest)
    else match hexDigit? c with
      | some d =>
        if 0x10FFFF < value * 16 + d then fail .escape (before whole rest)
        else readBracedHex whole (digits + 1) (value * 16 + d) rest
      | none => fail .escape (before whole rest)

/-- Reads an octal escape of up to `count` digits more. -/
def readOctal (value : Nat) : Nat → List Char → Nat × List Char
  | count + 1, c :: rest =>
    if isOctal c then readOctal (value * 8 + (c.toNat - '0'.toNat)) count rest
    else (value, c :: rest)
  | _, rest => (value, rest)

/-- What the letter of a control character stands for. -/
def controlEscape? : Char → Option Nat
  | 'a' => some 7
  | 'f' => some 12
  | 'n' => some 10
  | 'r' => some 13
  | 't' => some 9
  | 'v' => some 11
  | _ => none

/-- Reads an escape that stands for one character. `whole` starts at the backslash, and the
characters to be read stand behind it. -/
def readEscape (whole : List Char) : List Char → Reading Nat
  | [] => fail .trailingBackslash []
  | 'x' :: rest =>
    match rest with
    | [] => fail .escape whole
    | '\x7b' :: digits => readBracedHex whole 0 0 digits
    | [_] => fail .escape whole
    | a :: b :: rest =>
      match hexDigit? a, hexDigit? b with
      | some x, some y => .ok (x * 16 + y, rest)
      | _, _ => fail .escape (before whole rest)
  | c :: rest =>
    if c = '0' ∨ (isOctal c ∧ rest.head?.any isOctal) then
      .ok (readOctal (c.toNat - '0'.toNat) 2 rest)
    else match controlEscape? c with
      | some n => .ok (n, rest)
      | none =>
        if c.toNat < 128 ∧ ¬ c.isAlphanum then .ok (c.toNat, rest)
        else fail .escape (before whole rest)

/-! ## Classes -/

/-- A set of characters or its complement, under the flags that hold. -/
def classOf (flags : Flags) (ranges : CharRanges) (negated : Bool) : CharRanges :=
  let ranges := if flags.foldCase then ranges.foldCase else ranges.normalize
  if negated then ranges.complement else ranges

/-- The ranges of a letter class: digits, blanks or word characters. -/
def letterClass? (flags : Flags) : Char → Option CharRanges
  | 'd' => some (classOf flags [(48, 57)] false)
  | 'D' => some (classOf flags [(48, 57)] true)
  | 's' => some (classOf flags [(9, 10), (12, 13), (32, 32)] false)
  | 'S' => some (classOf flags [(9, 10), (12, 13), (32, 32)] true)
  | 'w' => some (classOf flags [(48, 57), (65, 90), (95, 95), (97, 122)] false)
  | 'W' => some (classOf flags [(48, 57), (65, 90), (95, 95), (97, 122)] true)
  | _ => none

/-- The ranges of an ASCII class by its name. -/
def asciiClass? : String → Option CharRanges
  | "alnum" => some [(48, 57), (65, 90), (97, 122)]
  | "alpha" => some [(65, 90), (97, 122)]
  | "ascii" => some [(0, 127)]
  | "blank" => some [(9, 9), (32, 32)]
  | "cntrl" => some [(0, 31), (127, 127)]
  | "digit" => some [(48, 57)]
  | "graph" => some [(33, 126)]
  | "lower" => some [(97, 122)]
  | "print" => some [(32, 126)]
  | "punct" => some [(33, 47), (58, 64), (91, 96), (123, 126)]
  | "space" => some [(9, 13), (32, 32)]
  | "upper" => some [(65, 90)]
  | "word" => some [(48, 57), (65, 90), (95, 95), (97, 122)]
  | "xdigit" => some [(48, 57), (65, 70), (97, 102)]
  | _ => none

/-- The class of a property, which a circumflex in front of its name negates. -/
def propertyClass? (flags : Flags) (negated : Bool) : List Char → Option CharRanges
  | '^' :: name => (Property.find? name).map (classOf flags · !negated)
  | name => (Property.find? name).map (classOf flags · negated)

/-- Reads the name of a property behind the letter that introduces it. `whole` starts at the
backslash. -/
def readProperty (flags : Flags) (whole : List Char) (negated : Bool) (rest : List Char) :
    Reading CharRanges :=
  match rest with
  | [] => fail .charRange whole
  | '\x7b' :: inner =>
    match inner.dropWhile (· != '\x7d') with
    | [] => fail .charRange whole
    | _ :: behind =>
      match propertyClass? flags negated (inner.takeWhile (· != '\x7d')) with
      | some ranges => .ok (ranges, behind)
      | none => fail .charRange (before whole behind)
  | c :: behind =>
    match propertyClass? flags negated [c] with
    | some ranges => .ok (ranges, behind)
    | none => fail .charRange (before whole behind)

/-- Reads a class that stands behind a backslash, if there is one. `whole` starts at the
backslash. -/
def readClassEscape (flags : Flags) (whole : List Char) : List Char → Option (Reading CharRanges)
  | 'p' :: rest => some (readProperty flags whole false rest)
  | 'P' :: rest => some (readProperty flags whole true rest)
  | c :: rest => (letterClass? flags c).map fun ranges => .ok (ranges, rest)
  | [] => none

/-- Splits characters at the first occurrence of `:]`. -/
def cutNameEnd : List Char → Option (List Char × List Char)
  | ':' :: ']' :: rest => some ([], rest)
  | c :: rest => (cutNameEnd rest).map fun (name, behind) => (c :: name, behind)
  | [] => none

/-- Reads an ASCII class by its name between `[:` and `:]`, if these marks are there. -/
def readNamedClass (flags : Flags) : List Char → Option (Reading CharRanges)
  | '[' :: ':' :: rest =>
    (cutNameEnd rest).map fun (name, behind) =>
      let (negated, plain) : Bool × List Char := match name with
        | '^' :: plain => (true, plain)
        | plain => (false, plain)
      match asciiClass? (String.ofList plain) with
      | some ranges => .ok (classOf flags ranges negated, behind)
      | none => fail .charRange ('[' :: ':' :: (name ++ [':', ']']))
  | _ => none

/-- Reads one character of a class. `whole` starts at the opening bracket. -/
def readClassChar (whole : List Char) : List Char → Reading Nat
  | [] => fail .missingBracket whole
  | '\\' :: rest => readEscape ('\\' :: rest) rest
  | c :: rest => .ok (c.toNat, rest)

/-- Reads a character or a range of a class. -/
def readRange (flags : Flags) (whole : List Char) (cs : List Char) :
    Except RegexError (CharRanges × List Char) := do
  let (low, rest) ← readClassChar whole cs
  match rest with
  | '-' :: c :: behind =>
    if c = ']' then return (classOf flags [(low, low)] false, rest)
    else
      let (high, last) ← readClassChar whole (c :: behind)
      if high < low then fail .charRange (before cs last)
      else return (classOf flags [(low, high)] false, last)
  | _ => return (classOf flags [(low, low)] false, rest)

/-- Reads an element of a class. -/
def readClassElement (flags : Flags) (whole : List Char) (cs : List Char) : Reading CharRanges :=
  match readNamedClass flags cs with
  | some r => r
  | none =>
    match cs with
    | '\\' :: rest => (readClassEscape flags cs rest).getD (readRange flags whole cs)
    | _ => readRange flags whole cs

/-- Reads the elements of a class up to its closing bracket. A closing bracket that comes first is
an element. -/
def readElements (flags : Flags) (whole : List Char) (elements : List CharRanges) :
    Nat → List Char → Except RegexError (CharRanges × List Char)
  | 0, _ => fail .missingBracket whole
  | fuel + 1, cs =>
    if cs.head? = some ']' ∧ ¬ elements.isEmpty then .ok (elements.flatten, cs.tail)
    else do
      let (ranges, rest) ← readClassElement flags whole cs
      readElements flags whole (ranges :: elements) fuel rest

/-- Reads a class behind its opening bracket. -/
def readClass (flags : Flags) (whole : List Char) (cs : List Char) :
    Except RegexError (CharRanges × List Char) := do
  let (negated, body) : Bool × List Char := match cs with
    | '^' :: body => (true, body)
    | body => (false, body)
  let (ranges, rest) ← readElements flags whole [] (body.length + 1) body
  return (if negated then ranges.complement else ranges.normalize, rest)

/-! ## Groups -/

/-- A group that is being read: the flags around it, whether it captures what it matches, its
finished alternatives and the parts of the present one, both latest first. -/
structure Group where
  outer : Flags
  captures : Bool := false
  alternatives : List Regex := []
  parts : List Regex := []

/-- The alternatives of a group with another one, which joins the last of them if both are for a
single character. -/
def Group.withAlternative (g : Group) (r : Regex) : List Regex :=
  match g.alternatives with
  | last :: earlier =>
    if r.isSingle && last.isSingle then Regex.mergeSingles last r :: earlier
    else r :: last :: earlier
  | [] => [r]

/-- The reader: the flags, the innermost open group, the groups around it, the pattern from the last
repetition on, if that repetition was the last thing read, and the number of characters and ends of
ranges that have been put down so far. -/
structure State where
  pattern : List Char
  flags : Flags := {}
  group : Group := { outer := {} }
  around : List Group := []
  lastRepeat : Option (List Char) := none
  stored : Nat := 0

/-- The number of characters and ends of ranges that an expression itself holds. -/
def storage : Regex → Nat
  | .literal cs _ => cs.length
  | .chars ranges => 2 * ranges.length
  | _ => 0

/-- The largest number of characters and ends of ranges. -/
def mostStored : Nat := 33554432

/-- The largest size of an expression. -/
def mostSteps : Nat := 3355443

/-- The largest height of an expression. -/
def mostLevels : Nat := 1000

namespace State

/-- Holds a complete expression against the bounds. -/
def check (s : State) (r : Regex) : Except RegexError State :=
  if mostStored < s.stored ∨ mostSteps < r.size then fail .tooLarge s.pattern
  else if mostLevels < r.height then fail .tooDeep s.pattern
  else .ok s

/-- Completes an expression: it is settled, counted and held against the bounds. -/
def complete (s : State) (r : Regex) : Except RegexError (Regex × State) := do
  let s ← { s with stored := s.stored + storage r }.check r.settle
  return (r.settle, s)

/-- Adds a part to the innermost group. -/
def push (s : State) (r : Regex) : Except RegexError State := do
  let (r, s) ← s.complete r
  return { s with group := { s.group with parts := r :: s.group.parts }, lastRepeat := none }

/-- Adds a character. -/
def literal (s : State) (n : Nat) : Except RegexError State :=
  s.push (.literal [if s.flags.foldCase then foldLeast n else n] s.flags.foldCase)

/-- Opens a group. -/
def openGroup (s : State) (inner : Flags) (captures : Bool) : State :=
  { s with
    flags := inner
    group := { outer := s.flags, captures := captures }
    around := s.group :: s.around
    lastRepeat := none }

/-- Starts another alternative. -/
def bar (s : State) : Except RegexError State := do
  let (r, s) ← s.complete (Regex.concat s.group.parts.reverse)
  return { s with
    group := { s.group with alternatives := s.group.withAlternative r, parts := [] }
    lastRepeat := none }

/-- The innermost group as an expression. -/
def groupRegex (s : State) : Except RegexError (Regex × State) := do
  let (r, s) ← s.complete (Regex.concat s.group.parts.reverse)
  s.complete (Regex.alternate (s.group.withAlternative r).reverse)

/-- Closes the innermost group, which must not be the whole pattern. -/
def closeGroup (s : State) : Except RegexError State := do
  let (r, s) ← s.groupRegex
  match s.around with
  | [] => fail .unexpectedParen s.pattern
  | outer :: around =>
    let closed : State := { s with flags := s.group.outer, group := outer, around := around }
    closed.push (if s.group.captures then .group r else r)

/-- Repeats the last part. `here` is the pattern from the repetition on and `rest` what follows the
repetition. -/
def repeatLast (s : State) (here rest : List Char) (f : Regex → Regex) : Except RegexError State :=
  match s.lastRepeat with
  | some last => fail .repeatOperator (before last rest)
  | none =>
    match s.group.parts with
    | [] => fail .missingRepeatArgument (before here rest)
    | r :: earlier => do
      let s ← s.check (f r)
      if (f r).repeatsWithin 1000 then
        return { s with group := { s.group with parts := f r :: earlier }, lastRepeat := some here }
      else fail .repeatSize (before here rest)

end State

/-! ## The reader -/

/-- Reads the digits of a repetition count; a number without digits or with a leading zero is none.
Numbers that are far too large are all alike. -/
def readCount? (cs : List Char) : Option (Nat × List Char) :=
  let digits := cs.takeWhile Char.isDigit
  match digits with
  | [] => none
  | '0' :: _ :: _ => none
  | _ => some (digits.foldl (fun n c => min (n * 10 + (c.toNat - '0'.toNat)) 100000000) 0,
      cs.dropWhile Char.isDigit)

/-- Reads the bounds of a counted repetition behind its opening brace. -/
def readBounds? (cs : List Char) : Option ((Nat × Option Nat) × List Char) := do
  let (least, rest) ← readCount? cs
  match rest with
  | '\x7d' :: behind => some ((least, some least), behind)
  | ',' :: '\x7d' :: behind => some ((least, none), behind)
  | ',' :: rest =>
    let (most, rest) ← readCount? rest
    match rest with
    | '\x7d' :: behind => some ((least, some most), behind)
    | _ => none
  | _ => none

/-- Whether the mark of a reluctant repetition comes next, and the rest behind it. Which match is
preferred makes no difference to whether there is one. -/
def readReluctant : List Char → Bool × List Char
  | '?' :: rest => (true, rest)
  | rest => (false, rest)

/-- Whether characters can name a group. -/
def isGroupName (name : List Char) : Bool :=
  !name.isEmpty && name.all fun c => c.isAlphanum || c == '_'

/-- Reads flags behind `(?` up to the colon that opens a group or the closing parenthesis. `whole`
starts at the opening parenthesis; `on` says whether flags are set or cleared, and `any` whether one
has been read since the last sign. -/
def readFlags (whole : List Char) (s : State) (flags : Flags) (on any : Bool) :
    List Char → Reading State
  | [] => fail .perlOperator whole
  | c :: rest =>
    match c with
    | 'i' => readFlags whole s { flags with foldCase := on } on true rest
    | 'm' => readFlags whole s { flags with multiLine := on } on true rest
    | 's' => readFlags whole s { flags with dotAll := on } on true rest
    | 'U' => readFlags whole s flags on true rest
    | '-' =>
      if on then readFlags whole s flags false false rest
      else fail .perlOperator (before whole rest)
    | ':' =>
      if on || any then .ok (s.openGroup flags false, rest)
      else fail .perlOperator (before whole rest)
    | ')' =>
      if on || any then .ok ({ s with flags := flags, lastRepeat := none }, rest)
      else fail .perlOperator (before whole rest)
    | _ => fail .perlOperator (before whole rest)

/-- Reads the name of a group behind its opening angle. `whole` starts with the parenthesis. -/
def readGroupName (whole : List Char) (s : State) (cs : List Char) : Reading State :=
  match cs.dropWhile (· != '>') with
  | [] => fail .namedCapture whole
  | _ :: rest =>
    if isGroupName (cs.takeWhile (· != '>')) then .ok (s.openGroup s.flags true, rest)
    else fail .namedCapture (before whole rest)

/-- Reads what stands behind `(?`. -/
def readExtension (whole : List Char) (s : State) : List Char → Reading State
  | 'P' :: '<' :: c :: rest => readGroupName whole s (c :: rest)
  | '<' :: c :: rest => readGroupName whole s (c :: rest)
  | cs => readFlags whole s s.flags true false cs

/-- Splits characters at the first occurrence of the end mark of a quoted stretch; without a mark
all of them are quoted. -/
def cutQuoted : List Char → List Char × List Char
  | '\\' :: 'E' :: rest => ([], rest)
  | c :: rest =>
    let (quoted, behind) := cutQuoted rest
    (c :: quoted, behind)
  | [] => ([], [])

/-- Adds what was read to the innermost group. -/
def pushed (s : State) (reading : Reading CharRanges) :
    Except RegexError (State × List Char) := do
  let (ranges, rest) ← reading
  return (← s.push (.chars ranges), rest)

/-- Reads what stands behind a backslash outside classes. `here` starts at the backslash. -/
def readBackslash (s : State) (here : List Char) :
    List Char → Except RegexError (State × List Char)
  | 'A' :: rest => (s.push (.boundary .textStart)).map (·, rest)
  | 'b' :: rest => (s.push (.boundary .word)).map (·, rest)
  | 'B' :: rest => (s.push (.boundary .noWord)).map (·, rest)
  | 'z' :: rest => (s.push (.boundary .textEnd)).map (·, rest)
  | 'C' :: _ => fail .escape ['\\', 'C']
  | 'Q' :: rest =>
    let (quoted, behind) := cutQuoted rest
    (quoted.foldlM (fun (s : State) c => s.literal c.toNat) { s with lastRepeat := none }).map
      (·, behind)
  | cs =>
    match readClassEscape s.flags here cs with
    | some reading => pushed s reading
    | none => do
      let (n, rest) ← readEscape here cs
      return (← s.literal n, rest)

/-- Reads one part of a pattern. -/
def readPart (s : State) (c : Char) (rest : List Char) : Reading State :=
  let here := c :: rest
  match c with
  | '(' =>
    match rest with
    | '?' :: behind => readExtension here s behind
    | _ => .ok (s.openGroup s.flags true, rest)
  | '|' => s.bar.map (·, rest)
  | ')' => s.closeGroup.map (·, rest)
  | '^' => part (.boundary (if s.flags.multiLine then .lineStart else .textStart))
  | '$' => part (.boundary (if s.flags.multiLine then .lineEnd else .textEnd))
  | '.' => part (.anyChar s.flags.dotAll)
  | '[' => pushed s (readClass s.flags here rest)
  | '*' => repetition here rest fun _ => .star
  | '+' => repetition here rest fun _ => .plus
  | '?' => repetition here rest fun _ => .optional
  | '\x7b' =>
    match readBounds? rest with
    | none => (s.literal c.toNat).map (·, rest)
    | some ((least, most), behind) =>
      if 1000 < least ∨ most.any (1000 < ·) ∨ most.any (· < least) then
        fail .repeatSize (before here behind)
      else repetition here behind fun reluctant r => .repeated r least most reluctant
  | '\\' => readBackslash s here rest
  | _ => (s.literal c.toNat).map (·, rest)
where
  /-- Adds an expression for one character of the pattern. -/
  part (r : Regex) : Reading State := (s.push r).map (·, rest)
  /-- Repeats the last part and goes on behind the repetition. -/
  repetition (here behind : List Char) (f : Bool → Regex → Regex) : Reading State :=
    let (reluctant, behind) := readReluctant behind
    (s.repeatLast here behind (f reluctant)).map (·, behind)

/-- Reads a pattern part by part. Each part takes at least one character, so that `fuel` need not
exceed the number of characters. -/
def readParts : Nat → State → List Char → Except RegexError State
  | _, s, [] => .ok s
  | 0, s, _ => .ok s
  | fuel + 1, s, c :: rest => do
    let (s, rest) ← readPart s c rest
    readParts fuel s rest

/-- Reads a pattern of characters. -/
def readChars (cs : List Char) : Except RegexError Regex := do
  let s ← readParts (cs.length + 1) { pattern := cs } cs
  let (r, s) ← s.groupRegex
  if s.around.isEmpty then return r else fail .missingParen cs

/-- A character for private use that is not among some characters. -/
def otherChar (cs : List Char) : Char :=
  let candidates := (List.range (cs.length + 1)).map fun n => Char.ofNat (0xE000 + n)
  (candidates.find? fun c => !cs.contains c).getD '\uE000'

/-- The fault that characters have whatever stands behind them: the stretch at fault does not reach
that far. -/
def faultWithin? (cs : List Char) : Option RegexError :=
  let other := otherChar cs
  match readChars (cs ++ [other]) with
  | .ok _ => none
  | .error e => if e.stretch.shown.toList.contains other then none else some e

end RegexReader

/-- Reads a pattern. -/
def Regex.read (pattern : Text) : Except RegexError Regex :=
  match pattern.toString? with
  | some s => RegexReader.readChars s.toList
  | none =>
    -- the first stray byte is at fault, unless what stands before it is
    let sound := pattern.glyphs.takeWhile fun g => g.char?.isSome
    let stray := pattern.glyphs.drop sound.length
    let e := (RegexReader.faultWithin? (sound.filterMap Glyph.char?)).getD
      ⟨.invalidUtf8, Text.ofGlyphs stray⟩
    .error e

end CodeSmell
