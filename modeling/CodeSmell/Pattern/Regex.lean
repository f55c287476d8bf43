import CodeSmell.Pattern.CaseFolding
import CodeSmell.Text.Basic

/-!
# Regular expressions

A regular expression says which stretches of a text match. Where it can start and end is computed
for all places at once: a set of places of a text of `n` characters is a number with `n + 1` bits,
and `Regex.reach` gives the places at which a match can end that starts at one of the given places.

An expression has a size, the number of steps that it takes written out with all repetitions, and a
height, the depth of its nesting. Both are bounded for expressions that are read.
-/

set_option autoImplicit false

namespace CodeSmell

/-- A condition on a place between two characters. -/
inductive Boundary where
  | textStart
  | textEnd
  | lineStart
  | lineEnd
  | word
  | noWord
deriving DecidableEq

/-- A regular expression. -/
inductive Regex where
  | empty
  /-- Characters in a row, which may differ in case if case is folded. -/
  | literal (chars : List Nat) (foldCase : Bool)
  /-- One character of a set in normal form. -/
  | chars (ranges : CharRanges)
  /-- One character; a line break only if that is said. -/
  | anyChar (orBreak : Bool)
  | boundary (b : Boundary)
  | group (a : Regex)
  | star (a : Regex)
  | plus (a : Regex)
  | optional (a : Regex)
  /-- A number of repetitions, at least `least` and at most `most` if that is given. -/
  | repeated (a : Regex) (least : Nat) (most : Option Nat) (reluctant : Bool)
  | seq (parts : List Regex)
  | alt (choices : List Regex)

/-- Whether a code point is an ASCII letter or digit or the underscore. -/
def isWordCodePoint (n : Nat) : Bool :=
  (48 ≤ n && n ≤ 57) || (65 ≤ n && n ≤ 90) || n == 95 || (97 ≤ n && n ≤ 122)

namespace Boundary

/-- Whether the condition holds between two characters; there may be none at either side. -/
def holds (b : Boundary) (before after : Option Nat) : Bool :=
  match b with
  | .textStart => before.isNone
  | .textEnd => after.isNone
  | .lineStart => before.isNone || before == some 10
  | .lineEnd => after.isNone || after == some 10
  | .word => before.any isWordCodePoint != after.any isWordCodePoint
  | .noWord => before.any isWordCodePoint == after.any isWordCodePoint

end Boundary

namespace Regex

/-! ## Matching -/

/-- The places in front of the characters that satisfy a condition; `place` is the bit of the first
place. -/
def placesBefore (p : Nat → Bool) (place : Nat) : List Nat → Nat
  | [] => 0
  | c :: rest => (if p c then place else 0) ||| placesBefore p (2 * place) rest

/-- The places at which a condition on the characters on both sides holds. -/
def placesBetween (p : Option Nat → Option Nat → Bool) (place : Nat) (before : Option Nat) :
    List Nat → Nat
  | [] => if p before none then place else 0
  | c :: rest =>
    (if p before (some c) then place else 0) ||| placesBetween p (2 * place) (some c) rest

/-- The places behind the characters that satisfy a condition and stand at some places. -/
def step (text : List Nat) (p : Nat → Bool) (places : Nat) : Nat :=
  2 * (places &&& placesBefore p 1 text)

/-- The places reached by any number of steps; each round that counts adds a place, so that `rounds`
need not exceed the number of places. -/
def closure (f : Nat → Nat) : Nat → Nat → Nat
  | 0, places => places
  | rounds + 1, places =>
    let more := places ||| f places
    if more = places then places else closure f rounds more

/-- The places reached by exactly a number of steps. -/
def iterate (f : Nat → Nat) : Nat → Nat → Nat
  | 0, places => places
  | count + 1, places => iterate f count (f places)

/-- The places reached by at most a number of steps. -/
def upTo (f : Nat → Nat) : Nat → Nat → Nat
  | 0, places => places
  | count + 1, places => places ||| upTo f count (f places)

mutual
/-- The places of a text at which a match can end that starts at one of some places. -/
def reach (text : List Nat) : Regex → Nat → Nat
  | .empty, places => places
  | .literal cs fold, places =>
    cs.foldl (fun places c =>
      let alike := if fold then foldOrbit c else [c]
      step text alike.contains places) places
  | .chars ranges, places => step text ranges.contains places
  | .anyChar orBreak, places => step text (fun c => orBreak || c != 10) places
  | .boundary b, places => places &&& placesBetween b.holds 1 none text
  | .group a, places => reach text a places
  | .star a, places => closure (reach text a) (text.length + 1) places
  | .plus a, places => closure (reach text a) (text.length + 1) (reach text a places)
  | .optional a, places => places ||| reach text a places
  | .repeated a least most _, places =>
    let base := iterate (reach text a) least places
    match most with
    | some m => upTo (reach text a) (m - least) base
    | none => closure (reach text a) (text.length + 1) base
  | .seq parts, places => reachAll text parts places
  | .alt choices, places => reachAny text choices places

/-- The places reached by expressions one after the other. -/
def reachAll (text : List Nat) : List Regex → Nat → Nat
  | [], places => places
  | a :: rest, places => reachAll text rest (reach text a places)

/-- The places reached by one of some expressions. -/
def reachAny (text : List Nat) : List Regex → Nat → Nat
  | [], _ => 0
  | a :: rest, places => reach text a places ||| reachAny text rest places
end

/-- Whether some stretch of a text matches. -/
def matchesIn (r : Regex) (t : Text) : Bool :=
  let text := t.glyphs.map Glyph.codePoint
  r.reach text (Nat.pow 2 (text.length + 1) - 1) != 0

/-! ## Measures -/

mutual
/-- The number of steps of an expression with all repetitions written out, at least one. -/
def size : Regex → Nat
  | .empty => 1
  | .literal cs _ => max 1 cs.length
  | .chars _ => 1
  | .anyChar _ => 1
  | .boundary _ => 1
  | .group a => 2 + size a
  | .star a => 2 + size a
  | .plus a => 1 + size a
  | .optional a => 1 + size a
  | .repeated a least most _ =>
    match most with
    | some m => max 1 (m * size a + (m - least))
    | none => if least = 0 then 2 + size a else 1 + least * size a
  | .seq parts => max 1 (sizeAll parts)
  | .alt choices => max 1 (sizeAll choices + (choices.length - 1))

/-- The number of steps of some expressions together. -/
def sizeAll : List Regex → Nat
  | [] => 0
  | a :: rest => size a + sizeAll rest
end

mutual
/-- How deeply an expression is nested. -/
def height : Regex → Nat
  | .empty => 1
  | .literal _ _ => 1
  | .chars _ => 1
  | .anyChar _ => 1
  | .boundary _ => 1
  | .group a => 1 + height a
  | .star a => 1 + height a
  | .plus a => 1 + height a
  | .optional a => 1 + height a
  | .repeated a _ _ _ => 1 + height a
  | .seq parts => 1 + heightAll parts
  | .alt choices => 1 + heightAll choices

/-- How deeply the deepest of some expressions is nested. -/
def heightAll : List Regex → Nat
  | [] => 0
  | a :: rest => max (height a) (heightAll rest)
end

mutual
/-- Whether no chain of nested counted repetitions multiplies to more than a bound. -/
def repeatsWithin : Regex → Nat → Bool
  | .repeated a least most _, bound =>
    let count := most.getD least
    if most = some 0 then true
    else if bound < count then false
    else repeatsWithin a (if count = 0 then bound else bound / count)
  | .seq parts, bound => repeatsWithinAll parts bound
  | .alt choices, bound => repeatsWithinAll choices bound
  | .group a, bound => repeatsWithin a bound
  | .star a, bound => repeatsWithin a bound
  | .plus a, bound => repeatsWithin a bound
  | .optional a, bound => repeatsWithin a bound
  | .empty, _ => true
  | .literal _ _, _ => true
  | .chars _, _ => true
  | .anyChar _, _ => true
  | .boundary _, _ => true

/-- Whether the same holds for each of some expressions. -/
def repeatsWithinAll : List Regex → Nat → Bool
  | [], _ => true
  | a :: rest, bound => repeatsWithin a bound && repeatsWithinAll rest bound
end

end Regex

end CodeSmell
