import CodeSmell.Text.Basic

/-!
# Blank characters

The characters that separate the elements of a tree: those with the white-space property.
-/

set_option autoImplicit false

namespace CodeSmell

/-- Whether a character is white space. -/
def isBlank (c : Char) : Bool :=
  let n := c.toNat
  (0x09 ≤ n && n ≤ 0x0D) || n == 0x20 || n == 0x85 || n == 0xA0 || n == 0x1680
    || (0x2000 ≤ n && n ≤ 0x200A) || n == 0x2028 || n == 0x2029 || n == 0x202F || n == 0x205F
    || n == 0x3000

/-- Whether a glyph is white space; a stray byte never is. -/
def Glyph.isBlank : Glyph → Bool
  | .char c => CodeSmell.isBlank c
  | .stray _ => false

/-- The text without the blanks at its two ends. -/
def Text.trim (t : Text) : Text :=
  Text.ofGlyphs (((t.glyphs.dropWhile Glyph.isBlank).reverse.dropWhile Glyph.isBlank).reverse)

end CodeSmell
