import CodeSmell.Number.Floating
import CodeSmell.Number.Integer
import CodeSmell.Yaml.Node

/-!
# What plain scalars denote

A plain scalar denotes nothing, a truth value, a number or a day, according to how it is spelled,
and otherwise its own text. Integers may be written in base two, eight, ten or sixteen, and
underscores in a number do not count.
-/

set_option autoImplicit false

namespace CodeSmell

namespace Yaml

/-- What a scalar denotes. -/
inductive Meaning where
  | null
  | bool (value : Bool)
  | int (value : Int)
  | float (value : Float)
  | timestamp
  | string

/-- The name of a kind of scalar. -/
def Meaning.tag : Meaning → String
  | .null => "!!null"
  | .bool _ => "!!bool"
  | .int _ => "!!int"
  | .float _ => "!!float"
  | .timestamp => "!!timestamp"
  | .string => "!!str"

/-- Words for yes that older readers know. -/
def yesWords : List String := ["y", "Y", "yes", "Yes", "YES", "on", "On", "ON"]

/-- Words for no that older readers know. -/
def noWords : List String := ["n", "N", "no", "No", "NO", "off", "Off", "OFF"]

namespace Resolution

/-- The words that denote nothing, a truth value or a number without digits. -/
def words : List (String × Meaning) :=
  ["", "~", "null", "Null", "NULL"].map (·, .null) ++
  ["true", "True", "TRUE"].map (·, .bool true) ++
  ["false", "False", "FALSE"].map (·, .bool false) ++
  [".nan", ".NaN", ".NAN"].map (·, .float (0.0 / 0.0)) ++
  [".inf", ".Inf", ".INF", "+.inf", "+.Inf", "+.INF"].map (·, .float (1.0 / 0.0)) ++
  ["-.inf", "-.Inf", "-.INF"].map (·, .float (-1.0 / 0.0))

/-! ## Numbers -/

/-- The value of digits in a base, read after a number. -/
def digitsFrom (base n : Nat) : List Char → Option Nat
  | [] => some n
  | c :: rest =>
    match hexDigit? c with
    | some d => if d < base then digitsFrom base (n * base + d) rest else none
    | none => none

/-- The value of digits whose base is marked in front: `0x`, `0o` and `0b`, or a further zero for
base eight. -/
def readMagnitude? : List Char → Option Nat
  | '0' :: x :: c :: rest =>
    if x = 'x' ∨ x = 'X' then digitsFrom 16 0 (c :: rest)
    else if x = 'o' ∨ x = 'O' then digitsFrom 8 0 (c :: rest)
    else if x = 'b' ∨ x = 'B' then digitsFrom 2 0 (c :: rest)
    else digitsFrom 8 0 (x :: c :: rest)
  | '0' :: rest => digitsFrom 8 0 rest
  | [] => none
  | cs => digitsFrom 10 0 cs

/-- The value of an integer of 64 bits behind its sign, whose magnitude is read by `magnitude?`. -/
def readSigned? (magnitude? : List Char → Option Nat) : List Char → Option Int
  | '+' :: cs => ((magnitude? cs).map Int.ofNat).filter fitsInt64
  | '-' :: cs => ((magnitude? cs).map fun n => -Int.ofNat n).filter fitsInt64
  | _ => none

/-- The value of digits in a base, of which there has to be one. -/
def readDigits? (base : Nat) : List Char → Option Nat
  | [] => none
  | cs => digitsFrom base 0 cs

/-- The value of an integer with a sign, which stands in front or behind a small letter that marks
base two or eight. -/
def readSignedInteger? : List Char → Option Int
  | '0' :: 'b' :: cs => readSigned? (readDigits? 2) cs
  | '0' :: 'o' :: cs => readSigned? (readDigits? 8) cs
  | cs => readSigned? readMagnitude? cs

/-- The value of an integer: one of 64 bits, where the largest values are written without a sign. -/
def readInteger? (cs : List Char) : Option Int :=
  (readSignedInteger? cs).or
    (((readMagnitude? cs).filter (· < 18446744073709551616)).map Int.ofNat)

/-- Splits decimal digits off. -/
def spanDigits (cs : List Char) : List Char × List Char := cs.span Char.isDigit

/-- Whether characters are nothing or an exponent. -/
def isExponent : List Char → Bool
  | [] => true
  | mark :: rest =>
    let digits := Floating.dropSign rest
    (mark = 'e' || mark = 'E') && !digits.isEmpty && digits.all Char.isDigit

/-- Whether characters are a decimal number: digits with at most one point, not the point alone, an
optional sign in front and an optional exponent behind. -/
def isDecimal (cs : List Char) : Bool :=
  let (whole, rest) := spanDigits (Floating.dropSign cs)
  match rest with
  | '.' :: rest =>
    let (places, rest) := spanDigits rest
    !(whole.isEmpty && places.isEmpty) && isExponent rest
  | rest => !whole.isEmpty && isExponent rest

/-- The double nearest to a literal in decimal notation. -/
def readFloat? (cs : List Char) : Option Float :=
  if Floating.isLiteral cs && (Floating.hexBody? (Floating.dropSign cs)).isNone then
    let (s, rest) := Floating.readSignificand false {} (Floating.dropSign cs)
    let exponent := ((Floating.readExponent? (rest.drop 1)).getD 0) - s.places
    let magnitude := match exponent with
      | .ofNat e => if s.value = 0 then 0.0 else Float.ofScientific s.value false e
      | .negSucc e => Float.ofScientific s.value true (e + 1)
    some (if cs.head? = some '-' then -magnitude else magnitude)
  else none

/-! ## Days -/

/-- The number of days in a month. -/
def daysIn (year month : Nat) : Nat :=
  if month = 2 then
    if year % 4 = 0 && (year % 100 ≠ 0 || year % 400 = 0) then 29 else 28
  else if month = 4 || month = 6 || month = 9 || month = 11 then 30 else 31

/-- Splits off a number of one or two digits. -/
def shortNumber? (cs : List Char) : Option (Nat × List Char) :=
  let digits := (cs.take 2).takeWhile Char.isDigit
  (Decimal.readNat? digits).map (·, cs.drop digits.length)

/-- Whether characters are nothing or a fraction of a second. -/
def isFraction : List Char → Bool
  | [] => true
  | '.' :: rest => !rest.isEmpty && rest.all Char.isDigit
  | ',' :: rest => !rest.isEmpty && rest.all Char.isDigit
  | _ => false

/-- Splits off hours, minutes and seconds. -/
def dropClock? (cs : List Char) : Option (List Char) := do
  let (hour, rest) ← shortNumber? cs
  let rest ← match rest with | ':' :: rest => some rest | _ => none
  let (minute, rest) ← shortNumber? rest
  let rest ← match rest with | ':' :: rest => some rest | _ => none
  let (second, rest) ← shortNumber? rest
  if hour < 24 && minute < 60 && second < 60 then some rest else none

/-- Whether characters are a time zone. -/
def isZone : List Char → Bool
  | ['Z'] => true
  | [sign, h1, h2, ':', m1, m2] =>
    (sign = '+' || sign = '-') && [h1, h2, m1, m2].all Char.isDigit &&
      ((Decimal.readNat? [h1, h2]).any (· ≤ 24)) && ((Decimal.readNat? [m1, m2]).any (· ≤ 60))
  | _ => false

/-- Whether characters are a day with nothing, or a time of day, behind it. Any number of spaces can
stand between the two. -/
def isTimestamp (cs : List Char) : Bool :=
  let (year, rest) := spanDigits cs
  match year.length, Decimal.readNat? year, rest with
  | 4, some year, '-' :: rest =>
    match shortNumber? rest with
    | some (month, '-' :: rest) =>
      match shortNumber? rest with
      | some (day, rest) =>
        1 ≤ month && month ≤ 12 && 1 ≤ day && day ≤ daysIn year month &&
          match rest with
          | [] => true
          | ' ' :: rest => (dropClock? (rest.dropWhile (· = ' '))).any isFraction
          | mark :: rest => (mark = 'T' || mark = 't') &&
            (dropClock? rest).any fun rest =>
              let zone := if rest.head? = some '.' || rest.head? = some ',' then
                (rest.drop 1).dropWhile Char.isDigit else rest
              isZone zone && isFraction (rest.take (rest.length - zone.length))
      | none => false
    | _ => false
  | _, _, _ => false

end Resolution

/-- What a plain scalar denotes. -/
def Meaning.ofPlain (s : String) : Meaning :=
  match Resolution.words.lookup s with
  | some d => d
  | none =>
    match s.toList with
    | [] => .null
    | c :: rest =>
      if c = '.' then
        match Resolution.readFloat? (c :: rest) with
        | some x => .float x
        | none => .string
      else if c.isDigit || c = '+' || c = '-' then
        if Resolution.isTimestamp (c :: rest) then .timestamp
        else
          let plain := (c :: rest).filter (· ≠ '_')
          match Resolution.readInteger? plain with
          | some n => .int n
          | none =>
            if Resolution.isDecimal plain then
              match Resolution.readFloat? plain with
              | some x => .float x
              | none => .string
            else .string
      else .string

end Yaml

end CodeSmell
