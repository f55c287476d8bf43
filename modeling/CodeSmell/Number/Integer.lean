/-!
# Integers of 64 bits in decimal notation

An integer is written as an optional sign and decimal digits. Only values that fit into a signed
64-bit word are read.
-/

set_option autoImplicit false

namespace CodeSmell

/-- Whether an integer fits into a signed 64-bit word. -/
def fitsInt64 (n : Int) : Bool := -9223372036854775808 ≤ n && n ≤ 9223372036854775807

/-- The value that a signed 64-bit word holds after arithmetic that may have overflowed. -/
def wrapInt64 (n : Int) : Int := Int.bmod n 18446744073709551616

namespace Decimal

/-- The value of decimal digits read after a number. -/
def digitsFrom (n : Nat) : List Char → Option Nat
  | [] => some n
  | c :: rest => if c.isDigit then digitsFrom (n * 10 + (c.toNat - '0'.toNat)) rest else none

/-- The value of a non-empty sequence of decimal digits. -/
def readNat? : List Char → Option Nat
  | [] => none
  | cs => digitsFrom 0 cs

/-- The value of decimal digits with an optional sign in front. -/
def readInt? : List Char → Option Int
  | '+' :: cs => (readNat? cs).map Int.ofNat
  | '-' :: cs => (readNat? cs).map fun n => -Int.ofNat n
  | cs => (readNat? cs).map Int.ofNat

/-- The value of decimal digits with an optional sign, if it fits into 64 bits. -/
def readInt64? (cs : List Char) : Option Int := (readInt? cs).filter fitsInt64

end Decimal

end CodeSmell
