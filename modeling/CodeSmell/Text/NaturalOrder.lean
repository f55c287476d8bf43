import CodeSmell.Pattern.GeneralCategory
import CodeSmell.Text.Basic

/-!
# The natural order of names

Names in the order in which people list them: numbers inside names count by their value, so that
`part2` comes before `part10`. Letters come after other characters, except after a digit, where they
come first.
-/

set_option autoImplicit false

namespace CodeSmell

namespace NaturalOrder

/-- Whether a character is a letter. -/
def isLetter (c : Char) : Bool :=
  if c.toNat < 0x80 then c.isAlpha else letterRanges.contains c.toNat

/-- Whether a character is a decimal digit of some script. -/
def isDigit (c : Char) : Bool :=
  if c.toNat < 0x80 then c.isDigit else decimalDigitRanges.contains c.toNat

/-- The number that digits stand for, read after a number. -/
def numberFrom (start : Int) (digits : List Char) : Int :=
  digits.foldl (fun n c => n * 10 + ((c.toNat : Int) - 48)) start

/-- Compares two names from the first character in which they differ. `before` holds the common
characters in front of it, latest first. -/
def lessFrom (before : List Char) : List Char → List Char → Bool
  | [], [] => false
  | [], _ :: _ => true
  | _ :: _, [] => false
  | a :: as, b :: bs =>
    if a = b then lessFrom (a :: before) as bs
    else if isLetter a && isLetter b then a < b
    else if isLetter a || isLetter b then
      if before.head?.any isDigit then isLetter a else isLetter b
    else
      let start : Int :=
        if (a = '0' || b = '0') && (before.takeWhile isDigit).any (· ≠ '0') then 1 else 0
      let ds := (a :: as).takeWhile isDigit
      let es := (b :: bs).takeWhile isDigit
      let m := numberFrom start ds
      let n := numberFrom start es
      if m ≠ n then m < n
      else if ds.length ≠ es.length then ds.length < es.length
      else a < b

/-- Whether a name comes before another one. -/
def less (a b : Text) : Bool := lessFrom [] a.shown.toList b.shown.toList

/-- Named values in the natural order of their names. -/
def sort {α : Type} (fields : List (Text × α)) : List (Text × α) :=
  fields.mergeSort fun a b => !less b.1 a.1

end NaturalOrder

end CodeSmell
