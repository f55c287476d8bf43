/-!
# The fewest digits of a double

A double stands for all reals that round to it. `Shortest.ofFloat` gives the decimal with the
fewest digits in that interval, and of several such decimals the one nearest to the double. How it
is written is the business of a `FloatStyle`.
-/

set_option autoImplicit false

namespace CodeSmell

/-- A decimal number: digits without leading zeros, and the power of ten of the last one. -/
structure DecimalNumber where
  digits : Nat
  exponent : Int
deriving DecidableEq, Repr

namespace Shortest

/-- The quotient of a fraction by a power of ten, rounded down, with numerator and denominator of
the scaled fraction. -/
def scale (num den : Nat) (k : Int) : Nat × Nat :=
  match k with
  | .ofNat n => (num, den * Nat.pow 10 n)
  | .negSucc n => (num * Nat.pow 10 (n + 1), den)

/-- The least power of ten, in steps from `k` upwards, that exceeds a fraction. -/
def magnitude (num den : Nat) : Nat → Int → Int
  | 0, k => k
  | fuel + 1, k =>
    let (n, d) := scale num den k
    if n < d then k else magnitude num den fuel (k + 1)

/-- The multiple of `10 ^ k` nearest to a fraction among those in an interval around it, if any. The
ends of the interval have the same denominator as the fraction. -/
def onGrid (low num high den : Nat) (closed : Bool) (k : Int) : Option Nat :=
  let (n, d) := scale num den k
  let inside := fun c : Nat =>
    let (l, _) := scale low den k
    let (h, _) := scale high den k
    if closed then l ≤ c * d && c * d ≤ h else l < c * d && c * d < h
  let below := n / d
  let above := below + 1
  match inside below, inside above with
  | true, true => some (if 2 * (n - below * d) ≤ d then below else above)
  | true, false => some below
  | false, true => some above
  | false, false => none

/-- Tries grids from coarse to fine. -/
def search (low num high den : Nat) (closed : Bool) : Nat → Int → DecimalNumber
  | 0, k => ⟨num / den, k⟩
  | fuel + 1, k =>
    match onGrid low num high den closed k with
    | some c => ⟨c, k⟩
    | none => search low num high den closed fuel (k - 1)

/-- Moves zeros at the end of the digits into the exponent. -/
def trimZeros : Nat → DecimalNumber → DecimalNumber
  | 0, d => d
  | fuel + 1, d =>
    if d.digits ≠ 0 ∧ d.digits % 10 = 0 then trimZeros fuel ⟨d.digits / 10, d.exponent + 1⟩ else d

/-- The shortest decimal that rounds to the positive double `m * 2 ^ q`. The interval below a power
of two is half as wide, unless the double is among the smallest. -/
def ofBinary (m : Nat) (q : Int) (narrowBelow : Bool) : DecimalNumber :=
  let (factor, den) : Nat × Nat := match q - 2 with
    | .ofNat n => (Nat.pow 2 n, 1)
    | .negSucc n => (1, Nat.pow 2 (n + 1))
  let num := 4 * m * factor
  let low := (4 * m - if narrowBelow then 1 else 2) * factor
  let high := (4 * m + 2) * factor
  let top := magnitude num den 700 (-330)
  trimZeros 20 (search low num high den (m % 2 == 0) 20 (top - 1))

/-- The shortest decimal of the absolute value of a finite double. -/
def ofFloat (x : Float) : DecimalNumber :=
  let bits := x.toBits.toNat
  let fraction := bits % Nat.pow 2 52
  let power := bits / Nat.pow 2 52 % 2048
  if power = 0 then
    if fraction = 0 then ⟨0, 0⟩ else ofBinary fraction (-1074) false
  else ofBinary (fraction + Nat.pow 2 52) (Int.ofNat power - 1075) (fraction == 0 && power != 1)

/-- Whether the sign of a double is negative. -/
def isNegative (x : Float) : Bool := Nat.pow 2 63 ≤ x.toBits.toNat

end Shortest

/-- How doubles are written. -/
structure FloatStyle where
  /-- The least exponent of the first digit that is written positionally. -/
  least : Int
  /-- The first exponent of the first digit that is written as an exponent again. -/
  bound : Int
  /-- The least number of digits of a negative exponent. -/
  negativeWidth : Nat
  /-- The least number of digits of a positive exponent. -/
  positiveWidth : Nat

namespace FloatStyle

/-- Digits with a point behind the first one. -/
def mantissa : List Char → List Char
  | [] => []
  | [d] => [d]
  | d :: ds => d :: '.' :: ds

/-- Decimal digits with zeros in front up to a width. -/
def padded (width n : Nat) : List Char :=
  let ds := Nat.toDigits 10 n
  List.replicate (width - ds.length) '0' ++ ds

/-- A decimal number in positional notation. -/
def positional (ds : List Char) (exponent : Int) : List Char :=
  match exponent with
  | .ofNat n => ds ++ List.replicate n '0'
  | .negSucc n =>
    let places := n + 1
    if places < ds.length then
      ds.take (ds.length - places) ++ '.' :: ds.drop (ds.length - places)
    else '0' :: '.' :: (List.replicate (places - ds.length) '0' ++ ds)

/-- The text of a finite double. -/
def render (style : FloatStyle) (x : Float) : String :=
  let d := Shortest.ofFloat x
  let ds := Nat.toDigits 10 d.digits
  let first := d.exponent + ds.length - 1
  let body :=
    if d.digits ≠ 0 ∧ (first < style.least ∨ style.bound ≤ first) then
      match first with
      | .ofNat n => mantissa ds ++ 'e' :: '+' :: padded style.positiveWidth n
      | .negSucc n => mantissa ds ++ 'e' :: '-' :: padded style.negativeWidth (n + 1)
    else positional ds d.exponent
  String.ofList (if Shortest.isNegative x then '-' :: body else body)

end FloatStyle

end CodeSmell
