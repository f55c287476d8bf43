/-!
# Sets of characters as ranges

A set of code points is a list of closed ranges. Large sets that a standard defines are written as
the lines of a table: ranges in hexadecimal, `lo-hi` or a single code point, separated by blanks.

A set has many lists. The normal one has its ranges in increasing order with a gap between any two,
and `CharRanges.normalize` finds it.
-/

set_option autoImplicit false

namespace CodeSmell

/-- A set of code points, as closed ranges from the first to the second component. -/
abbrev CharRanges := List (Nat × Nat)

/-- The value of a hexadecimal digit. -/
def hexDigit? (c : Char) : Option Nat :=
  if '0' ≤ c ∧ c ≤ '9' then some (c.toNat - '0'.toNat)
  else if 'a' ≤ c ∧ c ≤ 'f' then some (c.toNat - 'a'.toNat + 10)
  else if 'A' ≤ c ∧ c ≤ 'F' then some (c.toNat - 'A'.toNat + 10)
  else none

/-- The last code point there is. -/
def lastCodePoint : Nat := 0x10FFFF

namespace CharRanges

/-- Whether a code point lies in one of the ranges. -/
def contains (ranges : CharRanges) (n : Nat) : Bool :=
  ranges.any fun r => r.1 ≤ n && n ≤ r.2

/-- Joins a range with the ranges behind it that overlap or touch it. -/
def joinFrom (r : Nat × Nat) : CharRanges → CharRanges
  | [] => [r]
  | next :: rest =>
    if next.1 ≤ r.2 + 1 then joinFrom (r.1, max r.2 next.2) rest else r :: joinFrom next rest

/-- The normal list of a set. -/
def normalize (ranges : CharRanges) : CharRanges :=
  match ranges.mergeSort fun a b => a.1 ≤ b.1 with
  | [] => []
  | r :: rest => joinFrom r rest

/-- The code points from one on that are in no range of a normal list. -/
def gapsFrom (next : Nat) : CharRanges → CharRanges
  | [] => if next ≤ lastCodePoint then [(next, lastCodePoint)] else []
  | r :: rest =>
    if next < r.1 then (next, r.1 - 1) :: gapsFrom (r.2 + 1) rest else gapsFrom (r.2 + 1) rest

/-- All other code points. -/
def complement (ranges : CharRanges) : CharRanges := gapsFrom 0 ranges.normalize

/-- Reads a line of a table from its characters. `low` is the lower end of a range whose upper end
is being read, and `value` the number read so far. -/
def readTable (low : Option Nat) (value : Nat) : List Char → CharRanges
  | [] => [(low.getD value, value)]
  | c :: rest =>
    if c = ' ' then (low.getD value, value) :: readTable none 0 rest
    else if c = '-' then readTable (some value) 0 rest
    else readTable low (value * 16 + (hexDigit? c).getD 0) rest

/-- The set that the lines of a table list. -/
def ofTable (lines : List String) : CharRanges := lines.flatMap fun l => readTable none 0 l.toList

end CharRanges

end CodeSmell
