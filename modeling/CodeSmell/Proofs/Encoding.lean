import CodeSmell.Text.Basic
import CodeSmell.Tree.Reader
import Mathlib.Data.List.Basic

/-!
# Characters and bytes

Text that is the UTF-8 form of characters shows exactly these characters (`Text.glyphs_ofChars`),
and any text is the sequence of the bytes of its glyphs, stray bytes included
(`Text.ofGlyphs_glyphs`). Texts stand in the order of their bytes exactly as their characters do
(`Text.ofChars_lt`).
-/

set_option autoImplicit false

namespace CodeSmell

namespace Text

/-! ## One character -/

/-- The code points of characters leave out the surrogates. -/
theorem toNat_range (c : Char) :
    c.toNat < 0xD800 ∨ (0xE000 ≤ c.toNat ∧ c.toNat < 0x110000) := by
  rcases c.valid with low | ⟨high, top⟩
  · exact Or.inl low
  · exact Or.inr ⟨high, top⟩

theorem toNat_ofNat_byte {n : Nat} (h : n < 256) : (UInt8.ofNat n).toNat = n := by
  rw [UInt8.toNat_ofNat', Nat.mod_eq_of_lt h]

theorem continuation?_ofNat {n : Nat} (h : n < 64) :
    continuation? (UInt8.ofNat (n + 128)) = some n := by
  have value := toNat_ofNat_byte (show n + 128 < 256 by omega)
  rw [continuation?, value, if_pos (by omega)]
  exact congrArg some (by omega)

theorem lead?_one {n : Nat} (small : n < 0x80) (rest : Text) :
    lead? (UInt8.ofNat n :: rest) = some (Char.ofNat n, 1) := by
  unfold lead?
  simp only [toNat_ofNat_byte (show n < 256 by omega), if_pos small]

theorem lead?_two {x y : Nat} (low : 2 ≤ x) (high : x < 32) (hy : y < 64) (rest : Text) :
    lead? (UInt8.ofNat (x + 192) :: UInt8.ofNat (y + 128) :: rest)
      = some (Char.ofNat (x * 64 + y), 2) := by
  unfold lead?
  simp only [toNat_ofNat_byte (show x + 192 < 256 by omega), continuation?_ofNat hy]
  rw [if_neg (by omega), if_neg (by omega), if_pos (by omega), Option.map_some,
    Nat.add_sub_cancel]

theorem lead?_three {x y z : Nat} (hx : x < 16) (hy : y < 64) (hz : z < 64)
    (long : 0x800 ≤ x * 4096 + y * 64 + z)
    (valid : x * 4096 + y * 64 + z < 0xD800 ∨ 0xE000 ≤ x * 4096 + y * 64 + z) (rest : Text) :
    lead? (UInt8.ofNat (x + 224) :: UInt8.ofNat (y + 128) :: UInt8.ofNat (z + 128) :: rest)
      = some (Char.ofNat (x * 4096 + y * 64 + z), 3) := by
  unfold lead?
  simp only [toNat_ofNat_byte (show x + 224 < 256 by omega), continuation?_ofNat hy,
    continuation?_ofNat hz, Option.bind_eq_bind, Option.bind_some]
  rw [if_neg (by omega), if_neg (by omega), if_neg (by omega), if_pos (by omega),
    Nat.add_sub_cancel, if_neg (by omega)]

theorem lead?_four {w x y z : Nat} (hw : w < 8) (hx : x < 64) (hy : y < 64) (hz : z < 64)
    (long : 0x10000 ≤ w * 262144 + x * 4096 + y * 64 + z)
    (valid : w * 262144 + x * 4096 + y * 64 + z < 0x110000) (rest : Text) :
    lead? (UInt8.ofNat (w + 240) :: UInt8.ofNat (x + 128) :: UInt8.ofNat (y + 128)
        :: UInt8.ofNat (z + 128) :: rest)
      = some (Char.ofNat (w * 262144 + x * 4096 + y * 64 + z), 4) := by
  unfold lead?
  dsimp only
  -- one rewrite for each bind: simplifying them at once makes the kernel compute `w * 262144`
  rw [toNat_ofNat_byte (show w + 240 < 256 by omega), if_neg (by omega), if_neg (by omega),
    if_neg (by omega), if_neg (by omega), continuation?_ofNat hx, continuation?_ofNat hy,
    continuation?_ofNat hz, Option.bind_eq_bind, Option.bind_some, Option.bind_some,
    Option.bind_some, Nat.add_sub_cancel, if_neg (by omega)]

/-- A character whose bytes are followed by any text is found with the number of its bytes. -/
theorem lead?_utf8EncodeChar_append (c : Char) (rest : Text) :
    lead? (String.utf8EncodeChar c ++ rest) = some (c, (String.utf8EncodeChar c).length) := by
  have range := toNat_range c
  have back : Char.ofNat c.toNat = c := Char.ofNat_toNat c
  rw [String.utf8EncodeChar, show c.val.toNat = c.toNat from rfl]
  generalize c.toNat = n at range back
  split
  next =>
    refine (lead?_one (by omega) rest).trans ?_
    rw [back]
    rfl
  next =>
    split
    next =>
      have value : n / 64 % 32 * 64 + n % 64 = n := by omega
      refine (lead?_two (by omega) (by omega) (by omega) rest).trans ?_
      rw [value, back]
      rfl
    next =>
      split
      next =>
        have value : n / 4096 % 16 * 4096 + n / 64 % 64 * 64 + n % 64 = n := by omega
        refine (lead?_three (by omega) (by omega) (by omega) (by omega) (by omega) rest).trans ?_
        rw [value, back]
        rfl
      next =>
        have value : n / 262144 % 8 * 262144 + n / 4096 % 64 * 4096 + n / 64 % 64 * 64 + n % 64
            = n := by omega
        refine (lead?_four (by omega) (by omega) (by omega) (by omega) (by omega) (by omega)
          rest).trans ?_
        rw [value, back]
        rfl

theorem toNat_ofNat_char {n : Nat} (valid : n < 0xD800 ∨ (0xE000 ≤ n ∧ n < 0x110000)) :
    (Char.ofNat n).val.toNat = n := by
  have is : n.isValidChar := valid.imp id fun h => ⟨h.1, h.2⟩
  rw [Char.ofNat, dif_pos is]
  rfl

theorem eq_of_continuation? {b : UInt8} {n : Nat} (h : continuation? b = some n) :
    n < 64 ∧ b = UInt8.ofNat (n + 128) := by
  rw [continuation?] at h
  split at h
  next range =>
    have value : b.toNat - 0x80 = n := Option.some.inj h
    have sum : n + 128 = b.toNat := by omega
    refine ⟨by omega, ?_⟩
    rw [sum, UInt8.ofNat_toNat]
  next => cases h

theorem utf8EncodeChar_one {c : Char} (small : c.toNat < 0x80) :
    String.utf8EncodeChar c = [UInt8.ofNat c.toNat] := by
  rw [String.utf8EncodeChar]
  exact if_pos (Nat.le_of_lt_succ small)

/-- A byte of the ASCII range belongs to no longer character. -/
theorem toNat_of_mem_utf8EncodeChar {c : Char} {b : UInt8} (mem : b ∈ String.utf8EncodeChar c)
    (ascii : b.toNat < 0x80) : c.toNat = b.toNat := by
  have none : ∀ n, 0x80 ≤ n → n < 256 → b ≠ UInt8.ofNat n := by
    intro n low high same
    rw [same, toNat_ofNat_byte high] at ascii
    omega
  by_cases small : c.toNat < 0x80
  · rw [utf8EncodeChar_one small, List.mem_singleton] at mem
    rw [mem, toNat_ofNat_byte (by omega)]
  · have large : ¬ c.val.toNat ≤ 0x7F := fun h => small (Nat.lt_succ_of_le h)
    rw [String.utf8EncodeChar, if_neg large] at mem
    exfalso
    split at mem
    · simp only [List.mem_cons, List.not_mem_nil, or_false] at mem
      rcases mem with same | same <;> exact none _ (by omega) (by omega) same
    · split at mem
      · simp only [List.mem_cons, List.not_mem_nil, or_false] at mem
        rcases mem with same | same | same <;> exact none _ (by omega) (by omega) same
      · simp only [List.mem_cons, List.not_mem_nil, or_false] at mem
        rcases mem with same | same | same | same <;> exact none _ (by omega) (by omega) same

theorem utf8EncodeChar_two {x y : Nat} (low : 2 ≤ x) (high : x < 32) (hy : y < 64) :
    String.utf8EncodeChar (Char.ofNat (x * 64 + y))
      = [UInt8.ofNat (x + 192), UInt8.ofNat (y + 128)] := by
  have first : (x * 64 + y) / 64 % 32 = x := by omega
  have second : (x * 64 + y) % 64 = y := by omega
  rw [String.utf8EncodeChar, toNat_ofNat_char (by omega), if_neg (by omega), if_pos (by omega),
    first, second]

theorem utf8EncodeChar_three {x y z : Nat} (hx : x < 16) (hy : y < 64) (hz : z < 64)
    (long : 0x800 ≤ x * 4096 + y * 64 + z)
    (valid : x * 4096 + y * 64 + z < 0xD800 ∨ 0xE000 ≤ x * 4096 + y * 64 + z) :
    String.utf8EncodeChar (Char.ofNat (x * 4096 + y * 64 + z))
      = [UInt8.ofNat (x + 224), UInt8.ofNat (y + 128), UInt8.ofNat (z + 128)] := by
  have first : (x * 4096 + y * 64 + z) / 4096 % 16 = x := by omega
  have second : (x * 4096 + y * 64 + z) / 64 % 64 = y := by omega
  have third : (x * 4096 + y * 64 + z) % 64 = z := by omega
  rw [String.utf8EncodeChar, toNat_ofNat_char (by omega), if_neg (by omega), if_neg (by omega),
    if_pos (by omega), first, second, third]

theorem utf8EncodeChar_four {w x y z : Nat} (hx : x < 64) (hy : y < 64) (hz : z < 64)
    (long : 0x10000 ≤ w * 262144 + x * 4096 + y * 64 + z)
    (valid : w * 262144 + x * 4096 + y * 64 + z < 0x110000) :
    String.utf8EncodeChar (Char.ofNat (w * 262144 + x * 4096 + y * 64 + z))
      = [UInt8.ofNat (w + 240), UInt8.ofNat (x + 128), UInt8.ofNat (y + 128),
        UInt8.ofNat (z + 128)] := by
  have first : (w * 262144 + x * 4096 + y * 64 + z) / 262144 % 8 = w := by omega
  have second : (w * 262144 + x * 4096 + y * 64 + z) / 4096 % 64 = x := by omega
  have third : (w * 262144 + x * 4096 + y * 64 + z) / 64 % 64 = y := by omega
  have fourth : (w * 262144 + x * 4096 + y * 64 + z) % 64 = z := by omega
  rw [String.utf8EncodeChar, toNat_ofNat_char (by omega), if_neg (by omega), if_neg (by omega),
    if_neg (by omega), first, second, third, fourth]

/-- A character that is found at the start of text stands there with its bytes. -/
theorem eq_utf8EncodeChar_append_of_lead? {t : Text} {c : Char} {size : Nat}
    (h : lead? t = some (c, size)) : ∃ rest, t = String.utf8EncodeChar c ++ rest := by
  have self (a : UInt8) : UInt8.ofNat a.toNat = a := UInt8.ofNat_toNat
  revert h
  fun_cases lead? t with
  | case1 | case3 | case5 | case7 | case9 => exact fun h => nomatch h
  | case2 a rest n small =>
    intro h
    obtain ⟨rfl, rfl⟩ := Prod.mk.inj (Option.some.inj h)
    have value : (Char.ofNat n).toNat = n := toNat_ofNat_char (by omega)
    rw [utf8EncodeChar_one (by omega), value, self]
    exact ⟨rest, rfl⟩
  | case4 a n _ low high b rest =>
    intro h
    obtain ⟨y, found, value⟩ := Option.map_eq_some_iff.1 h
    obtain ⟨rfl, rfl⟩ := Prod.mk.inj value
    obtain ⟨hy, rfl⟩ := eq_of_continuation? found
    rw [utf8EncodeChar_two (by omega) (by omega) hy, Nat.sub_add_cancel (by omega), self]
    exact ⟨rest, rfl⟩
  | case6 a n _ _ low high b b' rest =>
    intro h
    obtain ⟨y, found, inner⟩ := Option.bind_eq_some_iff.1 h
    obtain ⟨z, found', value⟩ := Option.bind_eq_some_iff.1 inner
    obtain ⟨hy, rfl⟩ := eq_of_continuation? found
    obtain ⟨hz, rfl⟩ := eq_of_continuation? found'
    dsimp only at value
    split at value
    next => cases value
    next valid =>
      obtain ⟨rfl, rfl⟩ := Prod.mk.inj (Option.some.inj value)
      rw [utf8EncodeChar_three (by omega) hy hz (by omega) (by omega),
        Nat.sub_add_cancel (by omega), self]
      exact ⟨rest, rfl⟩
  | case8 a n _ _ _ low b b' b'' rest =>
    intro h
    obtain ⟨x, found, inner⟩ := Option.bind_eq_some_iff.1 h
    obtain ⟨y, found', inner⟩ := Option.bind_eq_some_iff.1 inner
    obtain ⟨z, found'', value⟩ := Option.bind_eq_some_iff.1 inner
    obtain ⟨hx, rfl⟩ := eq_of_continuation? found
    obtain ⟨hy, rfl⟩ := eq_of_continuation? found'
    obtain ⟨hz, rfl⟩ := eq_of_continuation? found''
    dsimp only at value
    split at value
    next => cases value
    next valid =>
      obtain ⟨rfl, rfl⟩ := Prod.mk.inj (Option.some.inj value)
      rw [utf8EncodeChar_four hx hy hz (by omega) (by omega), Nat.sub_add_cancel (by omega), self]
      exact ⟨rest, rfl⟩

/-! ## Several characters -/

theorem glyphsAfter_append (skipped rest : Text) :
    glyphsAfter skipped.length (skipped ++ rest) = glyphsAfter 0 rest := by
  induction skipped with
  | nil => rfl
  | cons b skipped ih => exact ih

/-- The bytes of a character are read as that character, whatever follows. -/
theorem glyphs_utf8EncodeChar_append (c : Char) (rest : Text) :
    glyphs (String.utf8EncodeChar c ++ rest) = .char c :: glyphs rest := by
  have found := lead?_utf8EncodeChar_append c rest
  obtain ⟨b, more, bytes⟩ := List.exists_cons_of_ne_nil (@String.utf8EncodeChar_ne_nil c)
  rw [bytes, List.cons_append] at found ⊢
  rw [glyphs, glyphsAfter, found]
  exact congrArg (Glyph.char c :: ·) (glyphsAfter_append more rest)

theorem ofChars_append (cs cs' : List Char) : ofChars (cs ++ cs') = ofChars cs ++ ofChars cs' :=
  List.flatMap_append

/-- The UTF-8 form of characters shows these characters. -/
theorem glyphs_ofChars (cs : List Char) : glyphs (ofChars cs) = cs.map Glyph.char := by
  induction cs with
  | nil => rfl
  | cons c cs ih =>
    rw [ofChars, List.flatMap_cons, glyphs_utf8EncodeChar_append, ← ofChars, ih, List.map_cons]

/-- A text is the sequence of the bytes of its glyphs. -/
theorem ofGlyphs_glyphs (t : Text) : ofGlyphs (glyphs t) = t := by
  induction size : t.length using Nat.strongRecOn generalizing t with
  | _ size ih =>
    cases t with
    | nil => rfl
    | cons b rest =>
      cases found : lead? (b :: rest) with
      | none =>
        have shorter : ofGlyphs (glyphs rest) = rest := ih _ (by rw [← size]; simp) rest rfl
        rw [glyphs, glyphsAfter, found]
        exact congrArg (b :: ·) shorter
      | some p =>
        obtain ⟨c, count⟩ := p
        obtain ⟨tail, bytes⟩ := eq_utf8EncodeChar_append_of_lead? found
        have shorter : ofGlyphs (glyphs tail) = tail := by
          refine ih _ ?_ tail rfl
          have := List.length_pos_iff.2 (@String.utf8EncodeChar_ne_nil c)
          rw [← size, bytes, List.length_append]
          omega
        rw [bytes, glyphs_utf8EncodeChar_append, ofGlyphs, List.flatMap_cons, ← ofGlyphs, shorter]
        rfl

/-- A character whose bytes begin before an ASCII byte ends before it. -/
theorem exists_of_append_eq {t rest tail : Text} {b : UInt8} {c : Char} (ascii : b.toNat < 0x80)
    (nonempty : t ≠ []) (h : t ++ b :: rest = String.utf8EncodeChar c ++ tail) :
    ∃ more, t = String.utf8EncodeChar c ++ more ∧ tail = more ++ b :: rest := by
  rcases List.append_eq_append_iff.1 h with ⟨excess, bytes, later⟩ | ⟨more, bytes, later⟩
  · cases excess with
    | nil => exact ⟨[], by simp [bytes], later.symm⟩
    | cons first excess =>
      -- the byte would be part of the character, which then has no other byte
      obtain ⟨rfl, -⟩ := List.cons_eq_cons.1 later
      have inside : b ∈ String.utf8EncodeChar c := by simp [bytes]
      have same := toNat_of_mem_utf8EncodeChar inside ascii
      rw [utf8EncodeChar_one (same ▸ ascii)] at bytes
      obtain ⟨none, -⟩ := List.append_eq_singleton_iff.1 bytes.symm |>.resolve_right (by simp)
      exact absurd none nonempty
  · exact ⟨more, bytes, later⟩

/-- An ASCII byte is read as its character wherever it stands. -/
theorem glyphs_append_cons {b : UInt8} (ascii : b.toNat < 0x80) (t rest : Text) :
    glyphs (t ++ b :: rest) = glyphs t ++ .char (Char.ofNat b.toNat) :: glyphs rest := by
  induction size : t.length using Nat.strongRecOn generalizing t with
  | _ size ih =>
    cases t with
    | nil =>
      have found := lead?_one ascii rest
      rw [UInt8.ofNat_toNat] at found
      rw [List.nil_append, glyphs, glyphsAfter, found]
      rfl
    | cons first t =>
      cases found : lead? (first :: t ++ b :: rest) with
      | some p =>
        obtain ⟨c, count⟩ := p
        obtain ⟨tail, bytes⟩ := eq_utf8EncodeChar_append_of_lead? found
        obtain ⟨more, here, rfl⟩ := exists_of_append_eq ascii (List.cons_ne_nil first t) bytes
        have shorter := ih more.length ?_ more rfl
        · rw [bytes, glyphs_utf8EncodeChar_append, shorter, here, glyphs_utf8EncodeChar_append,
            List.cons_append]
        · have := List.length_pos_iff.2 (@String.utf8EncodeChar_ne_nil c)
          rw [← size, here, List.length_append]
          omega
      | none =>
        -- a character at the start of the text alone would be found here too
        have alone : lead? (first :: t) = none := by
          refine Option.eq_none_iff_forall_ne_some.2 fun p starts => ?_
          obtain ⟨tail, bytes⟩ := eq_utf8EncodeChar_append_of_lead? (c := p.1) starts
          rw [bytes, List.append_assoc, lead?_utf8EncodeChar_append] at found
          cases found
        have shorter := ih t.length (by rw [← size]; simp) t rfl
        rw [List.cons_append] at found ⊢
        rw [glyphs, glyphsAfter, found, glyphs, glyphsAfter, alone]
        exact congrArg (Glyph.stray first :: ·) shorter

/-- A line break separates source texts. -/
theorem sourceChars_append_newline (t rest : Text) :
    sourceChars (t ++ 0x0A :: rest) = sourceChars t ++ '\n' :: sourceChars rest := by
  rw [sourceChars, glyphs_append_cons (by decide), List.map_append]
  rfl

/-- A source text that is the UTF-8 form of characters is read as these characters. -/
theorem sourceChars_ofChars (cs : List Char) : sourceChars (ofChars cs) = cs := by
  simp [sourceChars, glyphs_ofChars, Glyph.char?, Function.comp_def]

/-- The bytes are the UTF-8 form of some characters. -/
def IsUtf8 (t : Text) : Prop := ∃ cs : List Char, t = ofChars cs

/-- What the characters of a text are the form of is the text. -/
theorem IsUtf8.ofChars_sourceChars {t : Text} (spelled : t.IsUtf8) : ofChars t.sourceChars = t := by
  obtain ⟨cs, rfl⟩ := spelled
  rw [sourceChars_ofChars]

theorem ofChars_injective {cs cs' : List Char} (h : ofChars cs = ofChars cs') : cs = cs' := by
  rw [← sourceChars_ofChars cs, h, sourceChars_ofChars]

/-! ## Strings -/

theorem ofString_inj {s s' : String} : ofString s = ofString s' ↔ s = s' := by
  constructor
  · intro same
    exact String.toList_inj.1 (ofChars_injective same)
  · rintro rfl
    rfl

theorem toString?_ofString (s : String) : toString? (ofString s) = some s := by
  have chars (cs : List Char) : (cs.map Glyph.char).mapM Glyph.char? = some cs := by
    induction cs with
    | nil => rfl
    | cons c cs ih => rw [List.map_cons, List.mapM_cons, ih]; rfl
  rw [toString?, ofString, glyphs_ofChars, chars, Option.map_some, String.ofList_toList]

theorem shown_ofString (s : String) : shown (ofString s) = s := by
  rw [shown, ofString, glyphs_ofChars, List.map_map]
  have same : (fun g : Glyph => Char.ofNat g.codePoint) ∘ Glyph.char = id := by
    funext c
    exact Char.ofNat_toNat c
  rw [same, List.map_id, String.ofList_toList]

/-! ## Order of bytes -/

/-- The bytes of a smaller character come first, whatever follows. -/
theorem utf8EncodeChar_append_lt {c d : Char} (less : c < d) (t t' : Text) :
    String.utf8EncodeChar c ++ t < String.utf8EncodeChar d ++ t' := by
  have order : c.toNat < d.toNat := less
  have range := toNat_range c
  have range' := toNat_range d
  rw [String.utf8EncodeChar, String.utf8EncodeChar, show c.val.toNat = c.toNat from rfl,
    show d.val.toNat = d.toNat from rfl]
  generalize c.toNat = m at *
  generalize d.toNat = n at *
  -- the bytes hold digits to base 64: the first one that differs decides
  have first : m / 262144 % 8 = m / 262144 ∧ n / 262144 % 8 = n / 262144 := by omega
  have second : m / 4096 < n / 4096 →
      m / 262144 < n / 262144 ∨ m / 262144 = n / 262144 ∧ m / 4096 % 64 < n / 4096 % 64 := by omega
  have third : m / 64 < n / 64 →
      m / 4096 < n / 4096 ∨ m / 4096 = n / 4096 ∧ m / 64 % 64 < n / 64 % 64 := by omega
  have last : m / 64 < n / 64 ∨ m / 64 = n / 64 ∧ m % 64 < n % 64 := by omega
  split_ifs <;>
    simp (disch := omega) only [List.cons_append, List.nil_append, List.cons_lt_cons_iff,
      UInt8.lt_iff_toNat_lt, ← UInt8.toNat_inj, toNat_ofNat_byte] <;>
    omega

/-- The order of characters is that of their bytes. -/
theorem ofChars_lt {cs cs' : List Char} (less : cs < cs') : ofChars cs < ofChars cs' := by
  induction less with
  | @nil c cs =>
    rw [ofChars, ofChars, List.flatMap_nil, List.flatMap_cons]
    have filled : String.utf8EncodeChar c ≠ [] := String.utf8EncodeChar_ne_nil
    cases whole : String.utf8EncodeChar c with
    | nil => exact absurd whole filled
    | cons b bs => exact List.nil_lt_cons _ _
  | @cons c cs cs' _ ih =>
    exact List.append_left_lt ih
  | rel less => exact utf8EncodeChar_append_lt less _ _

theorem ofString_lt {s t : String} (less : s < t) : ofString s < ofString t :=
  ofChars_lt (String.lt_iff.1 less)

end Text

end CodeSmell
