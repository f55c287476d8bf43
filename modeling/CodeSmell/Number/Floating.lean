import CodeSmell.Text.CharRanges

/-!
# Floating-point literals

A literal is an optional sign, digits with at most one point, and an exponent; after `0x` the digits
are hexadecimal and a binary exponent is mandatory. An underscore may stand between two digits. A
literal whose value is nearest to no finite double is refused, one that is too small is not.
-/

set_option autoImplicit false

namespace CodeSmell

namespace Floating

/-- The significant digits read so far: their value without the point, the number of places after
the point, and whether there is any digit at all. -/
structure Significand where
  value : Nat := 0
  places : Nat := 0
  afterPoint : Bool := false
  anyDigit : Bool := false

/-- The value of a digit in decimal or hexadecimal notation. -/
def digit? (hex : Bool) (c : Char) : Option Nat :=
  if hex then hexDigit? c else if c.isDigit then some (c.toNat - '0'.toNat) else none

/-- Reads digits, underscores and the point; returns what follows them. -/
def readSignificand (hex : Bool) (s : Significand) : List Char → Significand × List Char
  | [] => (s, [])
  | c :: rest =>
    if c = '_' then readSignificand hex s rest
    else if c = '.' then
      if s.afterPoint then (s, c :: rest)
      else readSignificand hex { s with afterPoint := true } rest
    else match digit? hex c with
      | some d =>
        readSignificand hex
          { s with
            value := s.value * (if hex then 16 else 10) + d
            places := if s.afterPoint then s.places + 1 else s.places
            anyDigit := true } rest
      | none => (s, c :: rest)

/-- Reads the digits of an exponent. Beyond five digits the value stays as it is: such an exponent
is out of range whatever its further digits are. -/
def readExponentDigits (e : Nat) : List Char → Option Nat
  | [] => some e
  | c :: rest =>
    if c = '_' then readExponentDigits e rest
    else if c.isDigit then
      readExponentDigits (if e < 10000 then e * 10 + (c.toNat - '0'.toNat) else e) rest
    else none

/-- Reads an exponent after its mark: an optional sign and digits, the first of which is no
underscore. -/
def readExponent? : List Char → Option Int
  | '+' :: c :: rest => if c.isDigit then (readExponentDigits 0 (c :: rest)).map Int.ofNat else none
  | '-' :: c :: rest =>
    if c.isDigit then (readExponentDigits 0 (c :: rest)).map fun e => -Int.ofNat e else none
  | c :: rest => if c.isDigit then (readExponentDigits 0 (c :: rest)).map Int.ofNat else none
  | [] => none

/-- What stands before a character, as far as underscores care. -/
inductive Before where
  | digit
  | underscore
  | other
deriving DecidableEq

/-- Whether each underscore stands between two digits. -/
def underscoresSeparate (hex : Bool) (before : Before) : List Char → Bool
  | [] => before ≠ .underscore
  | c :: rest =>
    if c.isDigit || (hex && (hexDigit? c).isSome) then underscoresSeparate hex .digit rest
    else if c = '_' then before = .digit && underscoresSeparate hex .underscore rest
    else before ≠ .underscore && underscoresSeparate hex .other rest

/-- The least number that is too large for a finite double: half a unit above the largest one. -/
def overflow : Nat := Nat.pow 2 1024 - Nat.pow 2 970

/-- Whether `value * base ^ exponent` is nearest to a finite double. -/
def isFinite (value base : Nat) (exponent : Int) : Bool :=
  match exponent with
  | .ofNat e => value == 0 || value * Nat.pow base e < overflow
  | .negSucc e => value < overflow * Nat.pow base (e + 1)

/-- The characters of a literal without its sign. -/
def dropSign : List Char → List Char
  | '+' :: rest => rest
  | '-' :: rest => rest
  | cs => cs

/-- The characters after `0x`, when at least one more follows. -/
def hexBody? : List Char → Option (List Char)
  | '0' :: x :: c :: rest => if x = 'x' ∨ x = 'X' then some (c :: rest) else none
  | _ => none

/-- Whether characters after the sign and the hexadecimal mark form a literal of finite value. -/
def isLiteralBody (hex : Bool) (cs : List Char) : Bool :=
  let (s, rest) := readSignificand hex {} cs
  let base := if hex then 2 else 10
  let shift : Int := if hex then 4 * s.places else s.places
  s.anyDigit && match rest with
    | [] => !hex && isFinite s.value base (-shift)
    | mark :: tail =>
      (if hex then mark = 'p' || mark = 'P' else mark = 'e' || mark = 'E') &&
        match readExponent? tail with
        | some e => isFinite s.value base (e - shift)
        | none => false

/-- Whether characters are a floating-point literal of finite value. -/
def isLiteral (cs : List Char) : Bool :=
  let body := dropSign cs
  match hexBody? body with
  | some digits => isLiteralBody true digits && underscoresSeparate true .digit digits
  | none => isLiteralBody false body && underscoresSeparate false .other body

end Floating

end CodeSmell
