import CodeSmell.Yaml.Scalar
import CodeSmell.Yaml.Token

/-!
# Tokens of a YAML text

Tokens are scanned one after the other. Two things need more than the next characters. A word is a
key if a colon follows it on its line, so that the place in front of a word is remembered, and the
mark of a key is put there later. And in block style the column of a token decides which collections
end before it.

A token can be used once it is certain that no mark has to be put in front of it and that two more
tokens follow it or the text ends. `Token.scan` keeps this rule: where scanning fails, the last
tokens before the failure are not used.
-/

set_option autoImplicit false

namespace CodeSmell

namespace Yaml

/-! ## Between tokens -/

/-- The number of characters that are looked at in search of a comment. -/
def commentReach : Nat := 511

/-- Whether a further comment comes next behind the end of a comment, with blanks and empty lines in
front of it. -/
def commentFollows : Nat → List Char → Bool
  | 0, _ => false
  | _ + 1, [] => false
  | reach + 1, c :: rest => c = '#' || ((isGap c || c = '\n') && commentFollows reach rest)

/-- Where one is between two tokens. -/
inductive BetweenMode where
  | blanks
  | comment
  /-- In front of a comment that follows another one. -/
  | nextComment

/-- Goes on to the next token. The end of a line in block style allows a key behind it. Tabs are
skipped where no key is allowed. Among the first `marked` characters of a text, the first character
of a line counts as a byte order mark and is skipped, whatever it is, if another one follows. -/
def skipFrom (marked : Nat) (flow : Bool) (mode : BetweenMode) (keyAllowed : Bool)
    (line column index : Nat) : List Char → Cursor × Bool
  | [] => (⟨[], line, column, index⟩, keyAllowed)
  | c :: rest =>
    match mode with
    | .nextComment =>
      if c = '#' then skipFrom marked flow .comment keyAllowed line (column + 1) (index + 1) rest
      else if isBreak c then
        skipFrom marked flow .nextComment keyAllowed (line + 1) 0 (index + 1) rest
      else skipFrom marked flow .nextComment keyAllowed line (column + 1) (index + 1) rest
    | .comment =>
      if !isBreak c then skipFrom marked flow .comment keyAllowed line (column + 1) (index + 1) rest
      else if c = '\n' && commentFollows commentReach rest then
        skipFrom marked flow .nextComment keyAllowed (line + 1) 0 (index + 1) rest
      else skipFrom marked flow .blanks (keyAllowed || !flow) (line + 1) 0 (index + 1) rest
    | .blanks =>
      if column = 0 && index + 2 ≤ marked then
        skipFrom marked flow .blanks keyAllowed line 1 (index + 1) rest
      else if c = ' ' || (c = '\t' && (flow || !keyAllowed)) then
        skipFrom marked flow .blanks keyAllowed line (column + 1) (index + 1) rest
      else if c = '#' then
        skipFrom marked flow .comment keyAllowed line (column + 1) (index + 1) rest
      else if isBreak c then
        skipFrom marked flow .blanks (keyAllowed || !flow) (line + 1) 0 (index + 1) rest
      else (⟨c :: rest, line, column, index⟩, keyAllowed)

/-- Goes past a comment behind a token on its line. -/
def Cursor.dropLineComment (c : Cursor) : Cursor :=
  let gap := (c.rest.takeWhile isGap).length
  if gap ≤ commentReach && (c.rest.drop gap).head? = some '#' then c.dropWhile fun _ => true else c

/-! ## Names, tags and directives -/

/-- Whether a character may stand in a name. -/
def isNameChar (c : Char) : Bool := c.isAlphanum || c = '_' || c = '-'

/-- Reads the name of a node behind its mark. -/
def readName (start c : Cursor) : Except Problem (String × Cursor) :=
  let name := c.rest.takeWhile isNameChar
  let behind := c.drop name.length
  if name.isEmpty || !(endsWord behind.rest ||
      behind.rest.head?.any ("?:,]\x7d%@\x60".toList.contains ·)) then
    behind.fail start "did not find expected alphabetic or numeric character"
  else .ok (String.ofList name, behind)

/-- Whether a character may stand in a tag as it is. -/
def isTagChar (c : Char) : Bool := isNameChar c || ";/?:@&=+$,.!~*'()[]".toList.contains c

/-- The bytes that hexadecimal escapes stand for, and what follows them. -/
def escapedBytes : List Char → Option (List UInt8 × List Char)
  | '%' :: a :: b :: rest => do
    let (high, low) ← (hexDigit? a).bind fun a => (hexDigit? b).map (a, ·)
    let (bytes, rest) ← escapedBytes rest
    pure (UInt8.ofNat (16 * high + low) :: bytes, rest)
  | '%' :: _ => none
  | cs => some ([], cs)

/-- Reads the characters of a tag; escapes stand for the bytes of characters. -/
def tagCharsFrom (start : Cursor) : Nat → List Char → Cursor → Except Problem (String × Cursor)
  | 0, taken, c => .ok (String.ofList taken.reverse, c)
  | fuel + 1, taken, c =>
    match c.rest with
    | '%' :: _ =>
      match escapedBytes c.rest with
      | none => c.fail start "did not find URI escaped octet"
      | some (bytes, rest) =>
        match String.fromUTF8? ⟨bytes.toArray⟩ with
        | none => c.fail start "found an incorrect leading UTF-8 octet"
        | some text =>
          tagCharsFrom start fuel (text.toList.reverse ++ taken)
            (c.drop (c.rest.length - rest.length))
    | d :: _ =>
      if isTagChar d then tagCharsFrom start fuel (d :: taken) c.next
      else .ok (String.ofList taken.reverse, c)
    | [] => .ok (String.ofList taken.reverse, c)

/-- Reads the characters of a tag that follow some of it; there has to be at least one in all. -/
def readTagChars (start c : Cursor) (before : String) : Except Problem (String × Cursor) := do
  let (text, behind) ← tagCharsFrom start (c.rest.length + 1) [] c
  if (before ++ text).isEmpty then behind.fail start "did not find expected tag URI"
  else pure (before ++ text, behind)

/-- Reads a handle: a name between exclamation marks, or one mark. A word behind a single mark is no
handle; it is returned all the same. -/
def readHandle (start c : Cursor) : Except Problem (String × Cursor) :=
  if c.rest.head? = some '!' then
    let name := (c.rest.drop 1).takeWhile isNameChar
    let behind := c.drop (name.length + 1)
    if behind.rest.head? = some '!' then
      .ok ("!" ++ String.ofList name ++ "!", behind.drop 1)
    else .ok ("!" ++ String.ofList name, behind)
  else c.fail start "did not find expected '!'"

/-- Reads a tag: the handle and what is behind it. -/
def readTag (c : Cursor) : Except Problem (TokenKind × Cursor) := do
  let (kind, behind) ←
    if (c.rest.drop 1).head? = some '<' then do
      let (text, behind) ← readTagChars c (c.drop 2) ""
      if behind.rest.head? = some '>' then pure (TokenKind.tag "" text, behind.drop 1)
      else behind.fail c "did not find the expected '>'"
    else do
      let (handle, behind) ← readHandle c c
      if 1 < handle.length && handle.endsWith "!" then do
        let (text, behind) ← readTagChars c behind ""
        pure (TokenKind.tag handle text, behind)
      else do
        let (text, behind) ← tagCharsFrom c (behind.rest.length + 1) [] behind
        let text := String.ofList (handle.toList.drop 1) ++ text
        pure (if text.isEmpty then TokenKind.tag "" "!" else TokenKind.tag "!" text, behind)
  if endsWord behind.rest then pure (kind, behind)
  else behind.fail c "did not find expected whitespace or line break"

/-- Reads a number of one or two digits in a version. -/
def readVersionNumber (start c : Cursor) : Except Problem (Nat × Cursor) :=
  let digits := c.rest.takeWhile Char.isDigit
  if digits.isEmpty then c.fail start "did not find expected version number"
  else if 2 < digits.length then c.fail start "found extremely long version number"
  else .ok (digits.foldl (fun n d => 10 * n + (d.toNat - '0'.toNat)) 0, c.drop digits.length)

/-- Reads a version. -/
def readVersion (start c : Cursor) : Except Problem (TokenKind × Cursor) := do
  let (major, behind) ← readVersionNumber start (c.dropWhile isGap)
  if behind.rest.head? ≠ some '.' then
    behind.fail start "did not find expected digit or '.' character"
  else do
    let (minor, behind) ← readVersionNumber start (behind.drop 1)
    pure (.version major minor, behind)

/-- Reads a handle and its meaning. -/
def readHandleMeaning (start c : Cursor) : Except Problem (TokenKind × Cursor) := do
  let (name, behind) ← readHandle start (c.dropWhile isGap)
  if name ≠ "!" && !name.endsWith "!" then
    behind.fail start "did not find expected '!'"
  else if !behind.rest.head?.any isGap then
    behind.fail start "did not find expected whitespace"
  else do
    let (meaning, behind) ← readTagChars start (behind.dropWhile isGap) ""
    if endsWord behind.rest then pure (.handle name meaning, behind)
    else behind.fail start "did not find expected whitespace or line break"

/-- Reads a directive, with the comment and the line break behind it. -/
def readDirective (c : Cursor) : Except Problem (TokenKind × Cursor) := do
  let name := (c.rest.drop 1).takeWhile isNameChar
  let behind := c.drop (name.length + 1)
  if name.isEmpty then behind.fail c "could not find expected directive name"
  else if !endsWord behind.rest then
    behind.fail c "found unexpected non-alphabetical character"
  else do
    let (kind, behind) ←
      if String.ofList name = "YAML" then readVersion c behind
      else if String.ofList name = "TAG" then readHandleMeaning c behind
      else behind.fail c "found unknown directive name"
    let words := behind.dropWhile isGap
    let last := if words.rest.head? = some '#' then words.dropWhile fun _ => true else words
    match last.rest with
    | [] => pure (kind, last)
    | d :: _ =>
      if isBreak d then pure (kind, last.next)
      else last.fail c "did not find expected comment or line break"

/-! ## Scanning -/

/-- A place at which the mark of a key may have to be put. -/
structure PossibleKey where
  /-- The number of tokens in front of the place. -/
  number : Nat
  place : Cursor
  /-- Whether nothing but a key can stand there. -/
  required : Bool

/-- What has been scanned. -/
structure ScanState where
  here : Cursor
  /-- The number of characters among which lines start with a byte order mark. -/
  marked : Nat := 0
  /-- The tokens, latest first. -/
  tokens : List Token := []
  count : Nat := 0
  /-- The columns of the open collections of block style, innermost first. -/
  columns : List Nat := []
  /-- The possible key in each open collection of flow style, innermost first, and last the one
  outside of them. -/
  keys : List (Option PossibleKey) := [none]
  /-- Whether a key may start here. -/
  keyAllowed : Bool := true
  /-- Whether the text has ended. -/
  ended : Bool := false
  /-- The problem that stands behind the text if only its first part can be read. -/
  behind : Option Problem := none

namespace ScanState

/-- Whether a collection of flow style is open. -/
def inFlow (s : ScanState) : Bool := 1 < s.keys.length

/-- One more than the column of the innermost open collection of block style. -/
def inner (s : ScanState) : Nat :=
  match s.columns with
  | [] => 0
  | column :: _ => column + 1

/-- Adds a token that starts at a place. -/
def push (s : ScanState) (place : Cursor) (kind : TokenKind) : ScanState :=
  { s with tokens := ⟨kind, place.line + 1⟩ :: s.tokens, count := s.count + 1 }

/-- Puts a token behind the first `number` tokens. -/
def insertAt (s : ScanState) (number : Nat) (place : Cursor) (kind : TokenKind) : ScanState :=
  let later := s.count - number
  { s with
    tokens := s.tokens.take later ++ ⟨kind, place.line + 1⟩ :: s.tokens.drop later
    count := s.count + 1 }

/-- Goes past some characters of a line. -/
def skip (s : ScanState) (count : Nat) : ScanState := { s with here := s.here.drop count }

/-- Allows or forbids a key. -/
def allowKey (s : ScanState) (allowed : Bool) : ScanState := { s with keyAllowed := allowed }

/-- Ends collections of block style, `count` of them. -/
def close (s : ScanState) (place : Cursor) : Nat → ScanState
  | 0 => s
  | count + 1 =>
    let outer : ScanState := { s with columns := s.columns.drop 1 }
    (outer.push place .blockEnd).close place count

/-- Ends the collections of block style that stand deeper than the present column. -/
def closeDeeper (s : ScanState) (place : Cursor) : ScanState :=
  if s.inFlow then s
  else s.close place (s.columns.takeWhile (s.here.column < ·)).length

/-- Ends all collections of block style. -/
def closeAll (s : ScanState) (place : Cursor) : ScanState :=
  if s.inFlow then s else s.close place s.columns.length

/-- The largest depth of collections of flow style, and of those of block style. -/
def mostOpen : Nat := 10000

/-- Starts a collection of block style at a column, unless one is open there. -/
def openAt (s : ScanState) (number column : Nat) (place : Cursor) (kind : TokenKind) :
    Except Problem ScanState :=
  if s.inFlow || column < s.inner then .ok s
  else if mostOpen ≤ s.columns.length then s.here.fail s.here "exceeded max depth of 10000"
  else
    let deeper : ScanState := { s with columns := column :: s.columns }
    .ok (deeper.insertAt number place kind)

/-- Gives up the possible key of the present collection. -/
def dropKey (s : ScanState) : Except Problem ScanState :=
  match s.keys with
  | some key :: outer =>
    if key.required then s.here.fail key.place "could not find expected ':'"
    else .ok { s with keys := none :: outer }
  | _ => .ok s

/-- Remembers the present place as one of a possible key. -/
def saveKey (s : ScanState) : Except Problem ScanState :=
  if s.keyAllowed then do
    let s ← s.dropKey
    let required := !s.inFlow && s.inner = s.here.column + 1
    pure { s with keys := some ⟨s.count, s.here, required⟩ :: s.keys.drop 1 }
  else .ok s

/-- Whether a possible key can still become one: it has to start on the present line and not too far
away. -/
def reaches (s : ScanState) (key : PossibleKey) : Bool :=
  key.place.line = s.here.line && s.here.index ≤ key.place.index + 1024

/-- Scans an opening bracket. -/
def openFlow (s : ScanState) (kind : TokenKind) : Except Problem ScanState := do
  let s ← s.saveKey
  if mostOpen < s.keys.length then s.here.fail s.here "exceeded max depth of 10000"
  else pure ({ s with keys := none :: s.keys, keyAllowed := true }.push s.here kind |>.skip 1)

/-- Scans a closing bracket. -/
def closeFlow (s : ScanState) (kind : TokenKind) : Except Problem ScanState := do
  let s ← s.dropKey
  let keys := if s.inFlow then s.keys.drop 1 else s.keys
  pure ({ s with keys := keys, keyAllowed := false }.push s.here kind |>.skip 1)

/-- Scans the mark of an item or of a key, which opens a collection of block style. -/
def mark (s : ScanState) (kind collection : TokenKind) (refusal : String) (allowed : Bool) :
    Except Problem ScanState := do
  if !s.inFlow && !s.keyAllowed then s.here.fail s.here refusal
  else do
    let s ← (← s.openAt s.count s.here.column s.here collection).dropKey
    pure ((s.allowKey allowed).push s.here kind |>.skip 1)

/-- Scans the mark of a value. If a possible key precedes it, that one becomes a key. -/
def value (s : ScanState) : Except Problem ScanState := do
  let outer := s.keys.drop 1
  let s ← match s.keys.head?.join with
    | some key =>
      if s.reaches key then
        let s := { s with keys := none :: outer }.insertAt key.number key.place .key
        (s.openAt key.number key.place.column key.place .blockMapping).map (·.allowKey false)
      else if key.required then s.here.fail key.place "could not find expected ':'"
      else anonymous { s with keys := none :: outer }
    | none => anonymous s
  pure (s.push s.here .value |>.skip 1)
where
  /-- A value without a key in front of it. -/
  anonymous (s : ScanState) : Except Problem ScanState :=
    if !s.inFlow && !s.keyAllowed then
      s.here.fail s.here "mapping values are not allowed in this context"
    else
      (s.openAt s.count s.here.column s.here .blockMapping).map (·.allowKey !s.inFlow)

/-- Scans a word that may be a key. -/
def word (s : ScanState) (read : Cursor → Except Problem (TokenKind × Cursor)) :
    Except Problem ScanState := do
  let s ← s.saveKey
  let (kind, behind) ← read s.here
  pure { (s.push s.here kind) with here := behind, keyAllowed := false }

/-- Scans a plain scalar. A key may follow if a line ended behind it; this is also told. -/
def plain (s : ScanState) : Except Problem (ScanState × Bool) := do
  let s ← s.saveKey
  let c := s.here
  let (text, broken, behind) ← plainFrom s.inFlow s.inner c [] {} c.line c.column c.index c.rest
  let scanned := s.push c (.scalar text true)
  pure ({ scanned with here := behind, keyAllowed := broken }, broken)

/-- Scans a block scalar. -/
def block (s : ScanState) : Except Problem ScanState := do
  let s ← s.dropKey
  let (text, behind) ← readBlockScalar s.inner s.here
  pure { (s.push s.here (.scalar text false)) with here := behind, keyAllowed := true }

/-- Scans what stands alone at the start of a line and ends all collections of block style. -/
def outermost (s : ScanState) (read : Cursor → Except Problem (TokenKind × Cursor)) :
    Except Problem ScanState := do
  let s ← (s.closeAll s.here).dropKey
  let (kind, behind) ← read s.here
  pure { (s.push s.here kind) with here := behind, keyAllowed := false }

/-- Scans the end of a text. -/
def finish (s : ScanState) : Except Problem ScanState := do
  let line := if s.here.column = 0 then s.here.line else s.here.line + 1
  let here : Cursor := ⟨[], line, 0, s.here.index⟩
  let s ← (({ s with here := here } : ScanState).closeAll here).dropKey
  pure { s.push here .textEnd with keyAllowed := false, ended := true }

/-- Goes past the comment behind a token. -/
def dropLineComment (s : ScanState) : ScanState := { s with here := s.here.dropLineComment }

/-- Scans a scalar in quotes, behind its opening quote. -/
def quoted (s : ScanState) (read : Cursor → Except Problem (String × Cursor)) :
    Except Problem ScanState :=
  s.word fun c => (read c).map fun (text, behind) => (.scalar text false, behind)

/-- Scans a token of which `c` is the first character and `rest` is the rest of the text. -/
def token (s : ScanState) (c : Char) (rest : List Char) : Except Problem ScanState :=
  let here := s.here
  let commented (scanned : Except Problem ScanState) := scanned.map dropLineComment
  if c = '[' then commented (s.openFlow .flowSequence)
  else if c = '\x7b' then commented (s.openFlow .flowMapping)
  else if c = ']' then commented (s.closeFlow .flowSequenceEnd)
  else if c = '\x7d' then commented (s.closeFlow .flowMappingEnd)
  else if c = ',' then
    commented (s.dropKey.map fun s => (s.allowKey true).push here .flowEntry |>.skip 1)
  else if c = '-' && endsWord rest then
    s.mark .blockEntry .blockSequence "block sequence entries are not allowed in this context" true
  else if c = '?' && (s.inFlow || endsWord rest) then
    commented (s.mark .key .blockMapping "mapping keys are not allowed in this context" !s.inFlow)
  else if c = ':' && (s.inFlow || endsWord rest) then commented s.value
  else if c = '*' then
    commented (s.word fun c => (readName c c.next).map fun (n, behind) => (.reference n, behind))
  else if c = '&' then
    commented (s.word fun c => (readName c c.next).map fun (n, behind) => (.anchor n, behind))
  else if c = '!' then commented (s.word readTag)
  else if (c = '|' || c = '>') && !s.inFlow then s.block
  else if c = '\'' then
    commented (s.quoted fun c =>
      singleFrom c [] {} c.line (c.column + 1) (c.index + 1) (c.rest.drop 1))
  else if c = '"' then
    commented (s.quoted fun c =>
      doubleFrom c [] {} c.line (c.column + 1) (c.index + 1) .text (c.rest.drop 1))
  else if startsPlain s.inFlow (c :: rest) then
    s.plain.map fun (s, broken) => if broken then s else s.dropLineComment
  else here.fail here "found character that cannot start any token"

/-- The problem behind the text, if it shows when a number of characters is needed. -/
def shortage? (s : ScanState) (count : Nat) : Option Problem :=
  if (s.here.rest.drop (count - 1)).isEmpty then s.behind else none

/-- Refuses a place at which a key has to be, if it can no longer become one and further tokens have
been scanned behind it. -/
def checkKey (s : ScanState) : Except Problem Unit :=
  match s.keys.getLast?.join with
  | some key =>
    if key.required && key.number + 3 ≤ s.count && !s.reaches key then
      s.here.fail key.place "could not find expected ':'"
    else .ok ()
  | none => .ok ()

/-- Scans the next token, with the starts and ends of collections around it. -/
def step (s : ScanState) : Except Problem ScanState := do
  s.checkKey
  let c := s.here
  let (here, keyAllowed) :=
    skipFrom s.marked s.inFlow .blanks s.keyAllowed c.line c.column c.index c.rest
  let skipped : ScanState := { s with here := here, keyAllowed := keyAllowed }
  match skipped.shortage? 4 with
  | some problem => .error problem
  | none =>
    let s := skipped.closeDeeper c
    match here.rest with
    | [] => s.finish
    | c :: rest =>
      if here.column = 0 && c = '%' then s.outermost readDirective
      else if here.atBoundary then
        s.outermost fun here =>
          .ok (if c = '-' then .documentStart else .documentEnd, here.drop 3)
      else s.token c rest

/-- The tokens that can be used although a problem follows: all but the last two, and none that
stands at or behind a place where a key can be or has to be. -/
def usable (s : ScanState) : List Token :=
  let pending := (s.keys.filterMap id).filter fun key => key.required || s.reaches key
  let bound := (pending.map PossibleKey.number).foldl min (s.count - 2)
  s.tokens.reverse.take bound

/-- Scans tokens up to the end of the text. Each step consumes a character, so that `fuel` need not
exceed the length of the text by more than one. -/
def run (s : ScanState) : Nat → Tokens
  | 0 => ⟨s.tokens.reverse, none⟩
  | fuel + 1 =>
    match s.step with
    | .error problem => ⟨s.usable, some problem⟩
    | .ok next =>
      if next.ended then ⟨next.tokens.reverse, none⟩
      else match next.shortage? 1 with
        | some problem => ⟨s.usable, some problem⟩
        | none => next.run fuel

end ScanState

/-- Goes past a byte order mark. -/
def dropByteOrderMark (cs : List Char) : List Char :=
  if cs.head? = some byteOrderMark then cs.drop 1 else cs

/-- The number of characters at the start of a text that take no more than some bytes. -/
def charsWithin : Nat → List Char → Nat
  | _, [] => 0
  | bytes, c :: rest =>
    if c.utf8Size ≤ bytes then charsWithin (bytes - c.utf8Size) rest + 1 else 0

/-- The number of bytes that are looked at together. -/
def portion : Nat := 512

/-- The part of a text that can be read: all of it, or if it has a character that is not allowed,
the whole portions in front of that. The text starts behind `before` bytes. -/
def readablePart (before : Nat) (text : List Char) : List Char :=
  let allowed := text.takeWhile isAllowed
  if allowed.length = text.length then text
  else
    let bytes := (allowed.map Char.utf8Size).foldl (· + ·) before
    text.take (charsWithin (bytes / portion * portion - before) text)

/-- The tokens of a text. A byte order mark in front does not belong to the text. A second one is
skipped and leaves its column behind, and it makes the lines of the first portion begin with a mark
as well. -/
def Token.scan (text : List Char) : Tokens :=
  let body := dropByteOrderMark text
  let before := if body.length = text.length then 0 else byteOrderMark.utf8Size
  let part := readablePart before body
  let problem : Option Problem :=
    if part.length = body.length then none else some ⟨0, "control characters are not allowed"⟩
  if part.isEmpty && problem.isSome then ⟨[], problem⟩
  else
    let chars := unifyBreaks part
    let start : Cursor := { rest := chars }
    let state : ScanState :=
      if chars.head? = some byteOrderMark then
        { here := start.drop 1, marked := charsWithin (portion - before) chars, behind := problem }
      else { here := start, behind := problem }
    state.run (chars.length + 1)

end Yaml

end CodeSmell
