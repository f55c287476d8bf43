import CodeSmell.Proofs.Encoding
import Mathlib.Algebra.Group.Nat.Defs
import Mathlib.Data.Option.Basic

/-!
# Quoted text

What is written between quotes is read back as it was, whatever bytes it is made of
(`Quoted.decode_encodeBody`). Between two marks stand plain characters and escapes, none of which is
the mark (`Quoted.Body`), so the second mark is the first one that no backslash precedes.
-/

set_option autoImplicit false

namespace CodeSmell

namespace Quoted

/-- Characters that can stand between two marks: plain ones, and any after a backslash. -/
inductive Body (mark : Char) : List Char → Prop where
  | nil : Body mark []
  | plain {c : Char} {rest : List Char} (noMark : c ≠ mark) (noEscape : c ≠ '\\')
      (more : Body mark rest) : Body mark (c :: rest)
  | escaped {c : Char} {rest : List Char} (more : Body mark rest) : Body mark ('\\' :: c :: rest)

theorem Body.append {mark : Char} {cs rest : List Char} (first : Body mark cs)
    (more : Body mark rest) : Body mark (cs ++ rest) := by
  induction first with
  | nil => exact more
  | plain noMark noEscape _ ih => exact .plain noMark noEscape ih
  | escaped _ ih => exact .escaped ih

/-! ## Hexadecimal digits -/

theorem hexDigit?_digitChar {d : Nat} (h : d < 16) : hexDigit? (Nat.digitChar d) = some d := by
  have all : ∀ d : Fin 16, hexDigit? (Nat.digitChar d) = some d.val := by decide
  exact all ⟨d, h⟩

theorem digitsValue?_concat {base n d : Nat} {cs : List Char} {c : Char}
    (before : digitsValue? base cs = some n) (digit : hexDigit? c = some d) (small : d < base) :
    digitsValue? base (cs ++ [c]) = some (n * base + d) := by
  rw [digitsValue?] at before ⊢
  rw [List.foldlM_append, before]
  simp [digit, small]

/-- The digits of a number are read as the number. -/
theorem digitsValue?_hexDigits {n : Nat} (count : Nat) (h : n < 16 ^ count) :
    digitsValue? 16 (hexDigits n count) = some n := by
  induction count generalizing n with
  | zero =>
    obtain rfl : n = 0 := by omega
    rfl
  | succ count ih =>
    have small : n % 16 < 16 := Nat.mod_lt n (by decide)
    have before := ih (n := n / 16) (by rw [Nat.pow_succ] at h; omega)
    rw [hexDigits, digitsValue?_concat before (hexDigit?_digitChar small) small,
      Nat.div_add_mod' n 16]

theorem digitChar_ne {d : Nat} (h : d < 16) : Nat.digitChar d ≠ '"' ∧ Nat.digitChar d ≠ '\\' := by
  have all : ∀ d : Fin 16, Nat.digitChar d ≠ '"' ∧ Nat.digitChar d ≠ '\\' := by decide
  exact all ⟨d, h⟩

theorem body_hexDigits (n count : Nat) : Body '"' (hexDigits n count) := by
  induction count generalizing n with
  | zero => exact .nil
  | succ count ih =>
    obtain ⟨noMark, noEscape⟩ := digitChar_ne (Nat.mod_lt n (by decide))
    exact (ih (n / 16)).append (.plain noMark noEscape .nil)

/-! ## Glyphs -/

theorem body_encodeChar (c : Char) : Body '"' (encodeChar '"' c) := by
  unfold encodeChar
  split
  · exact .escaped .nil
  next plain =>
    split
    · exact .escaped .nil
    · split
      · exact .plain (fun h => plain (Or.inl h)) (fun h => plain (Or.inr h)) .nil
      · split
        · exact .escaped (body_hexDigits _ _)
        · split
          · exact .escaped (body_hexDigits _ _)
          · exact .escaped (body_hexDigits _ _)

theorem body_encodeBody (t : Text) : Body '"' (encodeBody t) := by
  rw [encodeBody]
  induction t.glyphs with
  | nil => exact .nil
  | cons g gs ih =>
    rw [List.flatMap_cons]
    refine Body.append ?_ ih
    cases g with
    | char c => exact body_encodeChar c
    | stray b => exact .escaped (body_hexDigits _ _)

theorem decode_x {n : Nat} (h : n < 16 ^ 2) (rest : List Char) :
    decode ('\\' :: 'x' :: (hexDigits n 2 ++ rest)) = (decode rest).map (UInt8.ofNat n :: ·) := by
  have value := digitsValue?_hexDigits 2 h
  simp only [hexDigits, List.nil_append, List.cons_append] at value ⊢
  rw [decode, value]
  cases decode rest <;> rfl

theorem decode_u {n : Nat} {t : Text} (h : n < 16 ^ 4) (bytes : codePointBytes? n = some t)
    (rest : List Char) :
    decode ('\\' :: 'u' :: (hexDigits n 4 ++ rest)) = (decode rest).map (t ++ ·) := by
  have value := digitsValue?_hexDigits 4 h
  simp only [hexDigits, List.nil_append, List.cons_append] at value ⊢
  rw [decode, value]
  cases decoded : decode rest <;> simp [bytes]

theorem decode_U {n : Nat} {t : Text} (h : n < 16 ^ 8) (bytes : codePointBytes? n = some t)
    (rest : List Char) :
    decode ('\\' :: 'U' :: (hexDigits n 8 ++ rest)) = (decode rest).map (t ++ ·) := by
  have value := digitsValue?_hexDigits 8 h
  simp only [hexDigits, List.nil_append, List.cons_append] at value ⊢
  rw [decode, value]
  cases decoded : decode rest <;> simp [bytes]

theorem decode_short {c : Char} {v : UInt8} (value : shortValue? c = some v) (rest : List Char) :
    decode ('\\' :: c :: rest) = (decode rest).map (v :: ·) := by
  rw [decode, value]
  all_goals
    intros
    subst_vars
    cases value

theorem decode_plain {c : Char} (noEscape : c ≠ '\\') (noMark : c ≠ '"') (sameLine : c ≠ '\n')
    (rest : List Char) :
    decode (c :: rest) = (decode rest).map (String.utf8EncodeChar c ++ ·) := by
  rw [decode, if_neg (by simp [noEscape, noMark, sameLine])]
  all_goals
    intros
    contradiction

theorem codePointBytes?_toNat (c : Char) :
    codePointBytes? c.toNat = some (String.utf8EncodeChar c) := by
  rw [codePointBytes?, if_pos (Text.toNat_range c), Char.ofNat_toNat]

/-- The short escape of a control character stands for its single byte. -/
theorem shortValue?_of_shortEscape? {c letter : Char} (h : shortEscape? c = some letter) :
    c.toNat < 0x80 ∧ shortValue? letter = some (UInt8.ofNat c.toNat) := by
  unfold shortEscape? at h
  split at h
  case h_8 => cases h
  all_goals
    next value =>
      cases h
      rw [value]
      exact ⟨by decide, rfl⟩

/-- An escape or a plain character is read as the character for which it was written. -/
theorem decode_encodeChar (c : Char) (rest : List Char) :
    decode (encodeChar '"' c ++ rest) = (decode rest).map (String.utf8EncodeChar c ++ ·) := by
  have range := Text.toNat_range c
  unfold encodeChar
  split
  next special =>
    rcases special with rfl | rfl
    · exact decode_short rfl rest
    · exact decode_short rfl rest
  next plain =>
  split
  next letter short =>
    obtain ⟨small, value⟩ := shortValue?_of_shortEscape? short
    rw [Text.utf8EncodeChar_one small]
    exact decode_short value rest
  next long =>
  split
  · refine decode_plain (fun h => plain (Or.inr h)) (fun h => plain (Or.inl h)) ?_ rest
    rintro rfl
    cases long
  split
  next control =>
    have small : c.toNat < 0x80 := by omega
    rw [Text.utf8EncodeChar_one small]
    exact decode_x (by omega) rest
  split
  · exact decode_u (by omega) (codePointBytes?_toNat c) rest
  · exact decode_U (by omega) (codePointBytes?_toNat c) rest

/-- What is written for any text is read back as that text. -/
theorem decode_encodeBody (t : Text) : decode (encodeBody t) = some t := by
  have glyphs (gs : List Glyph) :
      decode (gs.flatMap (encodeGlyph '"')) = some (Text.ofGlyphs gs) := by
    induction gs with
    | nil => rw [List.flatMap_nil, decode, Text.ofGlyphs, List.flatMap_nil]
    | cons g gs ih =>
      have step : decode (encodeGlyph '"' g ++ gs.flatMap (encodeGlyph '"'))
          = (decode (gs.flatMap (encodeGlyph '"'))).map (g.bytes ++ ·) := by
        cases g with
        | char c => exact decode_encodeChar c _
        | stray b =>
          have byte := decode_x b.toNat_lt (gs.flatMap (encodeGlyph '"'))
          rw [UInt8.ofNat_toNat] at byte
          exact byte
      rw [List.flatMap_cons, step, ih]
      rfl
  rw [encodeBody, glyphs, Text.ofGlyphs_glyphs]

end Quoted

end CodeSmell
