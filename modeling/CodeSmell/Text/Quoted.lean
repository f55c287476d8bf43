import CodeSmell.Text.Basic
import CodeSmell.Text.Printable

/-!
# Quoted text

The written form of text between quotes. `encode` writes printable characters as they are and all
else as escapes, so that the result is one line of characters; `decode` reads the body of a literal
and accepts every escape, not only those that `encode` writes.
-/

set_option autoImplicit false

namespace CodeSmell

namespace Quoted

/-- The last hexadecimal digits of a number, `count` of them. -/
def hexDigits (n : Nat) : Nat → List Char
  | 0 => []
  | count + 1 => hexDigits (n / 16) count ++ [Nat.digitChar (n % 16)]

/-- The letter of the short escape of a control character. -/
def shortEscape? (c : Char) : Option Char :=
  match c.toNat with
  | 0x07 => some 'a'
  | 0x08 => some 'b'
  | 0x0C => some 'f'
  | 0x0A => some 'n'
  | 0x0D => some 'r'
  | 0x09 => some 't'
  | 0x0B => some 'v'
  | _ => none

/-- The written form of a character between two marks `mark`. -/
def encodeChar (mark c : Char) : List Char :=
  if c = mark ∨ c = '\\' then ['\\', c]
  else match shortEscape? c with
    | some letter => ['\\', letter]
    | none =>
      if isPrintable c then [c]
      else if c.toNat < 0x20 ∨ c.toNat = 0x7F then '\\' :: 'x' :: hexDigits c.toNat 2
      else if c.toNat < 0x10000 then '\\' :: 'u' :: hexDigits c.toNat 4
      else '\\' :: 'U' :: hexDigits c.toNat 8

/-- The written form of a glyph: a stray byte is always a hexadecimal escape. -/
def encodeGlyph (mark : Char) : Glyph → List Char
  | .char c => encodeChar mark c
  | .stray b => '\\' :: 'x' :: hexDigits b.toNat 2

/-- The written form of text, without the marks around it. -/
def encodeBody (t : Text) : List Char := t.glyphs.flatMap (encodeGlyph '"')

/-- The written form of text between double quotes. -/
def encode (t : Text) : List Char := '"' :: (encodeBody t ++ ['"'])

/-- The written form of one character between single quotes. -/
def encodeSingle (c : Char) : List Char := '\'' :: (encodeChar '\'' c ++ ['\''])

/-- The value of digits in a base, if all of them are digits of it. -/
def digitsValue? (base : Nat) (cs : List Char) : Option Nat :=
  cs.foldlM (fun n c => do
    let d ← hexDigit? c
    if d < base then some (n * base + d) else none) 0

/-- The bytes of the character with a given code point; surrogates and numbers beyond the last code
point are no characters. -/
def codePointBytes? (n : Nat) : Option Text :=
  if n < 0xD800 ∨ (0xE000 ≤ n ∧ n < 0x110000) then some (String.utf8EncodeChar (Char.ofNat n))
  else none

/-- What one short escape stands for. -/
def shortValue? : Char → Option UInt8
  | 'a' => some 0x07
  | 'b' => some 0x08
  | 'f' => some 0x0C
  | 'n' => some 0x0A
  | 'r' => some 0x0D
  | 't' => some 0x09
  | 'v' => some 0x0B
  | '\\' => some 0x5C
  | '"' => some 0x22
  | _ => none

/-- Reads the body of a literal between double quotes. A raw line end, an unknown escape and an
escape that is cut short are refused. -/
def decode : List Char → Option Text
  | [] => some []
  | '\\' :: 'x' :: a :: b :: rest => do
    let v ← digitsValue? 16 [a, b]
    return UInt8.ofNat v :: (← decode rest)
  | '\\' :: 'u' :: a :: b :: c :: d :: rest => do
    let t ← codePointBytes? (← digitsValue? 16 [a, b, c, d])
    return t ++ (← decode rest)
  | '\\' :: 'U' :: a :: b :: c :: d :: e :: f :: g :: h :: rest => do
    let t ← codePointBytes? (← digitsValue? 16 [a, b, c, d, e, f, g, h])
    return t ++ (← decode rest)
  | '\\' :: c :: rest =>
    match shortValue? c with
    | some v => (decode rest).map (v :: ·)
    | none => decodeOctal c rest
  | c :: rest =>
    if c = '\\' ∨ c = '"' ∨ c = '\n' then none
    else (decode rest).map (String.utf8EncodeChar c ++ ·)
where
  /-- Reads an escape of three octal digits, the first of which has been read. -/
  decodeOctal (a : Char) : List Char → Option Text
    | b :: c :: rest => do
      let v ← digitsValue? 8 [a, b, c]
      if v < 256 then return UInt8.ofNat v :: (← decode rest) else none
    | _ => none

end Quoted

end CodeSmell
