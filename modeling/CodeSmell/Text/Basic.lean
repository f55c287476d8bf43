/-!
# Text as bytes

Names, signatures and messages are sequences of bytes. They are nearly always the UTF-8 form of
some characters, but a string literal of a tree may denote any bytes at all, so no such invariant
is kept. `glyphs` reads the characters back: a byte that belongs to no well-formed character stands
alone.
-/

set_option autoImplicit false

namespace CodeSmell

/-- A sequence of bytes, usually the UTF-8 form of some characters. -/
abbrev Text := List UInt8

/-! Texts are equal if their bytes are, and the first byte in which they differ orders them. -/

instance : LawfulBEq Text := inferInstance

instance : Std.LawfulOrderLT Text := inferInstance

/-- What a reader of text sees at one place: a character, or a byte that is part of none. -/
inductive Glyph where
  | char (c : Char)
  | stray (byte : UInt8)
deriving DecidableEq, Repr

namespace Glyph

/-- The bytes of a glyph. -/
def bytes : Glyph → Text
  | .char c => String.utf8EncodeChar c
  | .stray b => [b]

/-- The character of a glyph. -/
def char? : Glyph → Option Char
  | .char c => some c
  | .stray _ => none

/-- The code point of a glyph; a stray byte counts as the replacement character. -/
def codePoint : Glyph → Nat
  | .char c => c.toNat
  | .stray _ => 0xFFFD

end Glyph

namespace Text

/-- The UTF-8 form of characters. -/
def ofChars (cs : List Char) : Text := cs.flatMap String.utf8EncodeChar

/-- The UTF-8 form of a string. -/
def ofString (s : String) : Text := ofChars s.toList

instance : Coe String Text := ⟨ofString⟩

/-- The six bits that a continuation byte carries. -/
def continuation? (b : UInt8) : Option Nat :=
  if 0x80 ≤ b.toNat ∧ b.toNat < 0xC0 then some (b.toNat - 0x80) else none

/-- The character that well-formed text starts with, and its number of bytes. Overlong forms,
surrogates and values beyond the last code point are not well formed. -/
def lead? : Text → Option (Char × Nat)
  | [] => none
  | a :: rest =>
    let n := a.toNat
    if n < 0x80 then some (Char.ofNat n, 1)
    else if n < 0xC2 then none
    else if n < 0xE0 then
      match rest with
      | b :: _ => (continuation? b).map fun y => (Char.ofNat ((n - 0xC0) * 64 + y), 2)
      | _ => none
    else if n < 0xF0 then
      match rest with
      | b :: c :: _ => do
        let v := (n - 0xE0) * 4096 + (← continuation? b) * 64 + (← continuation? c)
        if v < 0x800 ∨ (0xD800 ≤ v ∧ v < 0xE000) then none else some (Char.ofNat v, 3)
      | _ => none
    else
      match rest with
      | b :: c :: d :: _ => do
        let v := (n - 0xF0) * 262144 + (← continuation? b) * 4096 + (← continuation? c) * 64
          + (← continuation? d)
        if v < 0x10000 ∨ 0x110000 ≤ v then none else some (Char.ofNat v, 4)
      | _ => none

/-- The glyphs of text after `skip` bytes that belong to the character read last. -/
def glyphsAfter : Nat → Text → List Glyph
  | _, [] => []
  | skip + 1, _ :: rest => glyphsAfter skip rest
  | 0, b :: rest =>
    match lead? (b :: rest) with
    | some (c, size) => .char c :: glyphsAfter (size - 1) rest
    | none => .stray b :: glyphsAfter 0 rest

/-- The glyphs of text, in order. -/
def glyphs (t : Text) : List Glyph := glyphsAfter 0 t

/-- The bytes of glyphs. -/
def ofGlyphs (gs : List Glyph) : Text := gs.flatMap Glyph.bytes

/-- The string whose UTF-8 form the text is, if there is one. -/
def toString? (t : Text) : Option String :=
  (t.glyphs.mapM Glyph.char?).map String.ofList

/-- The characters that a reader of text sees; a stray byte shows as the replacement character. -/
def shown (t : Text) : String := String.ofList (t.glyphs.map fun g => Char.ofNat g.codePoint)

/-- The texts one after the other, with a separator between neighbours. -/
def join (separator : Text) (ts : List Text) : Text := separator.intercalate ts

/-- Whether one text ends in another. -/
def endsWith (t tail : Text) : Bool := tail.isSuffixOf t

/-- The decimal digits of an integer, with a sign when it is negative. -/
def ofInt (n : Int) : Text := ofString (toString n)

end Text

end CodeSmell
