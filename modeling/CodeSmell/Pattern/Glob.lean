import CodeSmell.Text.Basic

/-!
# Path patterns

A pattern matches whole paths. A star stands for any bytes but a slash, a question mark for any
character but a slash, and brackets for one of the characters they list; a backslash takes the next
character as it is. A pattern that cannot be read matches nothing.

A pattern is read as chunks between stars. Behind a star, a chunk is matched at the first place
where it fits, and the last chunk where it ends the path.
-/

set_option autoImplicit false

namespace CodeSmell

namespace Glob

/-- Something that matches at a fixed place. -/
inductive Part where
  | byte (b : UInt8)
  | anyChar
  | oneOf (negated : Bool) (ranges : List (Nat × Nat))

/-- A stretch of a pattern without a star, and whether a star stands in front of it. -/
structure Chunk where
  star : Bool
  parts : List Part

/-- The code point at the start of a text and the bytes behind it; a stray byte counts as the
replacement character. -/
def next : Text → Option (Nat × Text)
  | [] => none
  | b :: rest =>
    match Text.lead? (b :: rest) with
    | some (c, size) => some (c.toNat, rest.drop (size - 1))
    | none => some (0xFFFD, rest)

/-- Reads a character of a class, which is never the last thing of a pattern. -/
def readClassChar? (t : Text) : Option (Nat × Text) := do
  let body ← match t with
    | [] => none
    | b :: rest =>
      if b = '-'.toUInt8 ∨ b = ']'.toUInt8 then none
      else if b = '\\'.toUInt8 then some rest else some t
  let (c, size) ← Text.lead? body
  let rest := body.drop size
  if rest.isEmpty then none else some (c.toNat, rest)

/-- Reads the ranges of a class up to its closing bracket, of which there is at least one. -/
def readRanges? (ranges : List (Nat × Nat)) : Nat → Text → Option (List (Nat × Nat) × Text)
  | 0, _ => none
  | fuel + 1, t =>
    if t.head? = some ']'.toUInt8 ∧ ¬ ranges.isEmpty then some (ranges.reverse, t.tail)
    else do
      let (low, rest) ← readClassChar? t
      if rest.head? = some '-'.toUInt8 then
        let (high, rest) ← readClassChar? rest.tail
        readRanges? ((low, high) :: ranges) fuel rest
      else readRanges? ((low, low) :: ranges) fuel rest

/-- Reads a class behind its opening bracket. -/
def readClass? (t : Text) : Option (Part × Text) :=
  let negated := t.head? = some '^'.toUInt8
  let body := if negated then t.tail else t
  (readRanges? [] (body.length + 1) body).map fun (ranges, rest) => (.oneOf negated ranges, rest)

/-- Reads chunks. The parts of the present chunk are kept latest first. -/
def readChunks? (star : Bool) (parts : List Part) : Nat → Text → Option (List Chunk)
  | _, [] => some (if star ∨ ¬ parts.isEmpty then [⟨star, parts.reverse⟩] else [])
  | 0, _ => none
  | fuel + 1, b :: rest =>
    if b = '*'.toUInt8 then
      if parts.isEmpty then readChunks? true [] fuel rest
      else (readChunks? true [] fuel rest).map (⟨star, parts.reverse⟩ :: ·)
    else if b = '?'.toUInt8 then readChunks? star (.anyChar :: parts) fuel rest
    else if b = '['.toUInt8 then do
      let (part, rest) ← readClass? rest
      readChunks? star (part :: parts) fuel rest
    else if b = '\\'.toUInt8 then
      match rest with
      | [] => none
      | c :: rest => readChunks? star (.byte c :: parts) fuel rest
    else readChunks? star (.byte b :: parts) fuel rest

/-- Reads a pattern. -/
def read? (pattern : Text) : Option (List Chunk) :=
  readChunks? false [] (pattern.length + 1) pattern

/-- What is left of a text behind the parts of a chunk, if they match. -/
def matchParts? : List Part → Text → Option Text
  | [], t => some t
  | _ :: _, [] => none
  | .byte b :: parts, c :: rest => if b = c then matchParts? parts rest else none
  | .anyChar :: parts, c :: rest =>
    if c = '/'.toUInt8 then none
    else (next (c :: rest)).bind fun (_, rest) => matchParts? parts rest
  | .oneOf negated ranges :: parts, c :: rest =>
    (next (c :: rest)).bind fun (n, rest) =>
      if (ranges.any fun r => r.1 ≤ n && n ≤ r.2) != negated then matchParts? parts rest else none

/-- What is left of a text behind the first place where a chunk fits; the last chunk leaves
nothing. -/
def matchChunk? (chunk : Chunk) (isLast : Bool) : Text → Option Text
  | [] => (matchParts? chunk.parts []).filter fun rest => !isLast || rest.isEmpty
  | b :: rest =>
    match (matchParts? chunk.parts (b :: rest)).filter fun r => !isLast || r.isEmpty with
    | some r => some r
    | none => if chunk.star ∧ b ≠ '/'.toUInt8 then matchChunk? chunk isLast rest else none

/-- Whether chunks match a whole text. -/
def matchChunks : List Chunk → Text → Bool
  | [], t => t.isEmpty
  | chunk :: chunks, t =>
    match matchChunk? chunk chunks.isEmpty t with
    | some rest => matchChunks chunks rest
    | none => false

/-- Whether a pattern matches a whole text. -/
def matchesText (pattern t : Text) : Bool :=
  match read? pattern with
  | some chunks => matchChunks chunks t
  | none => false

end Glob

end CodeSmell
