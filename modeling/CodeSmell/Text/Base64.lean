import CodeSmell.Text.Basic

/-!
# Bytes written with 64 characters

Three bytes are written as four characters of six bits each. A last group of one or two bytes is
filled up with equals signs. Line breaks do not count; many characters are written on several lines.
-/

set_option autoImplicit false

namespace CodeSmell

namespace Base64

/-- The six bits that a character stands for. -/
def sextet? (c : Char) : Option Nat :=
  if 'A' ≤ c && c ≤ 'Z' then some (c.toNat - 'A'.toNat)
  else if 'a' ≤ c && c ≤ 'z' then some (c.toNat - 'a'.toNat + 26)
  else if c.isDigit then some (c.toNat - '0'.toNat + 52)
  else if c = '+' then some 62
  else if c = '/' then some 63
  else none

/-- The first `count` of the three bytes that four groups of six bits form. -/
def bytesOf (count a b c d : Nat) : Text :=
  [a * 4 + b / 16, b % 16 * 16 + c / 4, c % 4 * 64 + d].take count |>.map UInt8.ofNat

/-- The bytes of groups of four characters. -/
def decodeGroups : List Char → Option Text
  | [] => some []
  | [a, b, '=', '='] => do pure (bytesOf 1 (← sextet? a) (← sextet? b) 0 0)
  | [a, b, c, '='] => do pure (bytesOf 2 (← sextet? a) (← sextet? b) (← sextet? c) 0)
  | a :: b :: c :: d :: rest => do
    let bytes := bytesOf 3 (← sextet? a) (← sextet? b) (← sextet? c) (← sextet? d)
    pure (bytes ++ (← decodeGroups rest))
  | _ => none

/-- The bytes that characters stand for. -/
def decode? (cs : List Char) : Option Text := decodeGroups (cs.filter fun c => c ≠ '\n' && c ≠ '\r')

/-- The character for six bits. -/
def letter (n : Nat) : Char :=
  if n < 26 then Char.ofNat ('A'.toNat + n)
  else if n < 52 then Char.ofNat ('a'.toNat + (n - 26))
  else if n < 62 then Char.ofNat ('0'.toNat + (n - 52))
  else if n = 62 then '+'
  else '/'

/-- The groups of four characters for bytes. -/
def encodeGroups : Text → List Char
  | [] => []
  | [a] => [letter (a.toNat / 4), letter (a.toNat % 4 * 16), '=', '=']
  | [a, b] =>
    [letter (a.toNat / 4), letter (a.toNat % 4 * 16 + b.toNat / 16), letter (b.toNat % 16 * 4), '=']
  | a :: b :: c :: rest =>
    letter (a.toNat / 4) :: letter (a.toNat % 4 * 16 + b.toNat / 16) ::
      letter (b.toNat % 16 * 4 + c.toNat / 64) :: letter (c.toNat % 64) :: encodeGroups rest

/-- The number of characters on a line. -/
def lineWidth : Nat := 70

/-- Characters with a break behind each line. There are `room` places left on the first line. -/
def breakLines : Nat → List Char → List Char
  | _, [] => ['\n']
  | 0, c :: cs => '\n' :: c :: breakLines (lineWidth - 1) cs
  | room + 1, c :: cs => c :: breakLines room cs

/-- The characters for bytes. They have no breaks if they do not fill a line. -/
def encode (bytes : Text) : List Char :=
  let cs := encodeGroups bytes
  if cs.length < lineWidth then cs else breakLines lineWidth cs

end Base64

end CodeSmell
