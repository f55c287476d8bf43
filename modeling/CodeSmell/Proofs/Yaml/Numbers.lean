import CodeSmell.Proofs.RoundTrip
import CodeSmell.Proofs.Yaml.FlatScalars
import Mathlib.Data.List.TakeDrop
import Mathlib.Data.List.TakeWhile

/-!
# Integers as plain scalars

The decimal form of an integer can stand without quotes (`isPlain_toString`), and an integer of 64
bits is what it denotes (`ofPlain_toString`). The form is no word with a meaning of its own and no
day, and its sign stands in front.
-/

set_option autoImplicit false

namespace CodeSmell

namespace Yaml

/-! ## Characters -/

theorem ne_of_isDigit {c d : Char} (digit : c.isDigit = true) (other : d.isDigit = false) :
    c ≠ d := by
  rintro rfl
  rw [digit] at other
  cases other

theorem ne_of_digit_or_sign {c d : Char} (own : c.isDigit = true ∨ c = '-')
    (other : d.isDigit = false) (notSign : '-' ≠ d) : c ≠ d := by
  rcases own with digit | rfl
  · exact ne_of_isDigit digit other
  · exact notSign

theorem isPrintable_of_digit_or_sign {c : Char} (own : c.isDigit = true ∨ c = '-') :
    isPrintable c = true := by
  rcases own with digit | rfl
  · have range := Char.isDigit_iff_toNat.1 digit
    simp only [Char.reduceToNat] at range
    have low : 32 ≤ c.toNat := by omega
    have high : c.toNat ≤ 126 := by omega
    simp [isPrintable, low, high]
  · decide

theorem isBreak_of_digit_or_sign {c : Char} (own : c.isDigit = true ∨ c = '-') :
    isBreak c = false := by
  have differs (d : Char) (other : d.isDigit = false) (notSign : '-' ≠ d) : c ≠ d :=
    ne_of_digit_or_sign own other notSign
  simp [isBreak, differs '\n' (by decide) (by decide), differs '\r' (by decide) (by decide),
    differs '\u0085' (by decide) (by decide), differs '\u2028' (by decide) (by decide),
    differs '\u2029' (by decide) (by decide)]

/-! ## Meaning -/

namespace Resolution

/-- Words with a meaning of their own are no integers. -/
theorem lookup_words_toString (n : Int) : words.lookup (toString n) = none := by
  have odd : words.all (fun w => w.1.isEmpty || w.1.toList.any fun c => !c.isDigit && c != '-')
      = true := by rfl
  refine List.lookup_eq_none_iff.2 fun w mem => ?_
  rw [bne_iff_ne]
  intro same
  rcases Bool.or_eq_true_iff.1 (List.all_eq_true.1 odd w mem) with empty | strange
  · rw [← same, String.isEmpty_iff] at empty
    cases n with
    | ofNat n =>
      have none := Decimal.toList_toString_ofNat n
      rw [empty] at none
      exact Nat.toDigits_ne_nil none.symm
    | negSucc n =>
      have none := Decimal.toList_toString_negSucc n
      rw [empty] at none
      cases none
  · obtain ⟨c, inWord, strange⟩ := List.any_eq_true.1 strange
    rw [← same] at inWord
    rcases Decimal.isDigit_or_eq_of_mem_toString c inWord with digit | rfl
    · simp [digit] at strange
    · cases strange

theorem digitsFrom_eq_ofDigitChars {cs : List Char} (digits : ∀ c ∈ cs, c.isDigit) (n : Nat) :
    digitsFrom 10 n cs = some (Nat.ofDigitChars 10 cs n) := by
  induction cs generalizing n with
  | nil => rfl
  | cons c cs ih =>
    obtain ⟨first, rest⟩ := List.forall_mem_cons.1 digits
    have range := Char.isDigit_iff_toNat.1 first
    have value : hexDigit? c = some (c.toNat - '0'.toNat) :=
      if_pos (by simpa [Char.isDigit, Char.le_def] using first)
    have small : c.toNat - '0'.toNat < 10 := by
      simp only [Char.reduceToNat] at range ⊢
      omega
    rw [digitsFrom, value]
    dsimp only
    rw [if_pos small, ih rest, Nat.ofDigitChars, Nat.ofDigitChars, List.foldl_cons, Nat.mul_comm]

/-- Only the number zero is written with a zero in front. -/
theorem head?_toDigits {n : Nat} (pos : 0 < n) : (Nat.toDigits 10 n).head? ≠ some '0' := by
  induction n using Nat.strongRecOn with
  | _ n ih =>
    have digit : ∀ m < 10, 0 < m → (Nat.toDigits 10 m).head? ≠ some '0' := by decide
    by_cases small : n < 10
    · exact digit n small pos
    -- the digits of the quotient by ten come first
    · rw [Nat.toDigits_of_base_le (by decide) (Nat.le_of_not_lt small), List.head?_append_of_ne_nil]
      · exact ih (n / 10) (by omega) (by omega)
      · exact Nat.toDigits_ne_nil

theorem readMagnitude?_toDigits (n : Nat) : readMagnitude? (Nat.toDigits 10 n) = some n := by
  by_cases zero : n = 0
  · rw [zero]
    rfl
  have value : digitsFrom 10 0 (Nat.toDigits 10 n) = some n := by
    rw [digitsFrom_eq_ofDigitChars Decimal.isDigit_of_mem_toDigits,
      Nat.ofDigitChars_toDigits (by decide) (by decide)]
  -- a zero in front would announce another base
  have head := head?_toDigits (Nat.pos_of_ne_zero zero)
  unfold readMagnitude?
  split
  next eq => exact absurd (congrArg List.head? eq) head
  next eq => exact absurd (congrArg List.head? eq) head
  next eq => exact absurd eq Nat.toDigits_ne_nil
  next => exact value

theorem readSignedInteger?_of_digits {cs : List Char} (digits : ∀ c ∈ cs, c.isDigit) :
    readSignedInteger? cs = none := by
  have unsigned (magnitude? : List Char → Option Nat) : readSigned? magnitude? cs = none := by
    unfold readSigned?
    split
    next => exact absurd (digits '+' List.mem_cons_self) (by decide)
    next => exact absurd (digits '-' List.mem_cons_self) (by decide)
    next => rfl
  unfold readSignedInteger?
  split
  next => exact absurd (digits 'b' (by simp)) (by decide)
  next => exact absurd (digits 'o' (by simp)) (by decide)
  next => exact unsigned readMagnitude?

theorem readInteger?_toString {n : Int} (fits : fitsInt64 n = true) :
    readInteger? (toString n).toList = some n := by
  cases n with
  | ofNat n =>
    have small : n < 18446744073709551616 := by
      simp [fitsInt64] at fits
      omega
    rw [Decimal.toList_toString_ofNat, readInteger?,
      readSignedInteger?_of_digits Decimal.isDigit_of_mem_toDigits, readMagnitude?_toDigits,
      Option.filter_some, if_pos (decide_eq_true small)]
    rfl
  | negSucc n =>
    have value : (some (n + 1)).map (fun m => -Int.ofNat m) = some (Int.negSucc n) := rfl
    have signed : readSignedInteger? ('-' :: Nat.toDigits 10 (n + 1)) = some (Int.negSucc n) := by
      rw [readSignedInteger?, readSigned?, readMagnitude?_toDigits, value, Option.filter_some,
        if_pos fits]
      · rintro _ ⟨⟩
      · rintro _ ⟨⟩
    rw [Decimal.toList_toString_negSucc, readInteger?, signed]
    rfl

/-- A day has more than one number in it. -/
theorem isTimestamp_toString (n : Int) : isTimestamp (toString n).toList = false := by
  cases n with
  | ofNat n =>
    have all : spanDigits (Nat.toDigits 10 n) = (Nat.toDigits 10 n, []) := by
      rw [spanDigits, List.span_eq_takeWhile_dropWhile,
        List.takeWhile_eq_self_iff.2 Decimal.isDigit_of_mem_toDigits,
        List.dropWhile_eq_nil_iff.2 Decimal.isDigit_of_mem_toDigits]
    rw [Decimal.toList_toString_ofNat, isTimestamp, all]
    dsimp only
    split
    · cases ‹[] = '-' :: _›
    · rfl
  | negSucc n =>
    rw [Decimal.toList_toString_negSucc]
    rfl

end Resolution

/-- An integer of 64 bits is a plain scalar that denotes it. -/
theorem ofPlain_toString {n : Int} (fits : fitsInt64 n = true) :
    Meaning.ofPlain (toString n) = .int n := by
  have noMark : (toString n).toList.filter (· ≠ '_') = (toString n).toList := by
    refine List.filter_eq_self.2 fun c mem => decide_eq_true ?_
    apply ne_of_digit_or_sign (Decimal.isDigit_or_eq_of_mem_toString c mem)
    · decide
    · decide
  have day := Resolution.isTimestamp_toString n
  have value := Resolution.readInteger?_toString fits
  have chars := @Decimal.isDigit_or_eq_of_mem_toString n
  rw [Meaning.ofPlain, Resolution.lookup_words_toString]
  cases spelled : (toString n).toList with
  | nil =>
    rw [spelled] at value
    cases value
  | cons c rest =>
    rw [spelled] at noMark day value chars
    have first := chars c List.mem_cons_self
    have notPoint : c ≠ '.' := ne_of_digit_or_sign first (by decide) (by decide)
    have starts : (c.isDigit || c = '+' || c = '-') = true := by
      rcases first with digit | sign
      · simp [digit]
      · simp [sign]
    dsimp only
    rw [if_neg notPoint, if_pos starts, day, if_neg Bool.false_ne_true, noMark, value]

/-! ## Spelling -/

theorem hasPair_eq_false {first second : Char → Bool} {cs : List Char}
    (none : ∀ c ∈ cs, second c = false) : hasPair first second cs = false := by
  match cs with
  | [] => rfl
  | [c] => rfl
  | a :: b :: rest =>
    rw [hasPair, none b (by simp), Bool.and_false, Bool.false_or]
    exact hasPair_eq_false fun c mem => none c (List.mem_cons_of_mem _ mem)

theorem hasIndicatorAfter_eq_false {cs : List Char} (none : ∀ c ∈ cs, c ≠ ':' ∧ c ≠ '#')
    (before : Char) : hasIndicatorAfter before cs = false := by
  induction cs generalizing before with
  | nil => rfl
  | cons c cs ih =>
    obtain ⟨notColon, notComment⟩ := none c List.mem_cons_self
    rw [hasIndicatorAfter, ih (fun d mem => none d (List.mem_cons_of_mem _ mem))]
    simp [notColon, notComment]

/-- What has no gaps and no marks in it can stand without quotes, unless it starts like something
else. -/
theorem isPlain_of_unbroken {cs : List Char} (nonempty : cs ≠ [])
    (printable : ∀ c ∈ cs, isPrintable c = true) (unbroken : ∀ c ∈ cs, isBreak c = false)
    (noSpace : ∀ c ∈ cs, c ≠ ' ') (noTab : '\t' ∉ cs) (noMark : ∀ c ∈ cs, c ≠ ':' ∧ c ≠ '#')
    (start : startsWithIndicator cs = false) : IsPlain cs := by
  have single : allowsSingle cs = true := by
    have spaces : hasPair isBreak (· = ' ') cs = false :=
      hasPair_eq_false fun c mem => decide_eq_false (noSpace c mem)
    have breaks : hasSpaceBreak cs = false := hasPair_eq_false unbroken
    have special : hasSpecial cs = false :=
      List.any_eq_false.2 fun c mem => by simp [printable c mem]
    simp [allowsSingle, spaces, breaks, special, noTab]
  have inner : hasIndicator cs = false := by
    cases cs with
    | nil => rfl
    | cons c rest =>
      rw [hasIndicator, start, Bool.false_or]
      exact hasIndicatorAfter_eq_false (fun d mem => noMark d (List.mem_cons_of_mem _ mem)) c
  have edges (c : Option Char) (listed : ∀ d ∈ c, d ∈ cs) :
      (c.any fun c => decide (c = ' ') || isBreak c) = false := by
    cases c with
    | none => rfl
    | some d => simp [noSpace d (listed d rfl), unbroken d (listed d rfl)]
  have noBreak : cs.any isBreak = false := List.any_eq_false.2 fun c mem => by simp [unbroken c mem]
  refine ⟨nonempty, ?_⟩
  simp only [allowsPlain, single, edges _ fun d mem => List.mem_of_head? mem,
    edges _ fun d mem => List.mem_of_getLast? mem, noBreak, inner]
  rfl

/-- Digits, perhaps behind a sign, can stand without quotes. -/
theorem isPlain_of_digits {cs : List Char} (nonempty : cs ≠ [])
    (chars : ∀ c ∈ cs, c.isDigit = true ∨ c = '-') (start : startsWithIndicator cs = false) :
    IsPlain cs := by
  have differs (d : Char) (other : d.isDigit = false) (notSign : '-' ≠ d) : ∀ c ∈ cs, c ≠ d := by
    intro c mem
    exact ne_of_digit_or_sign (chars c mem) other notSign
  apply isPlain_of_unbroken nonempty
  · intro c mem
    exact isPrintable_of_digit_or_sign (chars c mem)
  · intro c mem
    exact isBreak_of_digit_or_sign (chars c mem)
  · exact differs ' ' (by decide) (by decide)
  · intro mem
    exact differs '\t' (by decide) (by decide) _ mem rfl
  · intro c mem
    exact ⟨differs ':' (by decide) (by decide) c mem, differs '#' (by decide) (by decide) c mem⟩
  · exact start

theorem startsWithIndicator_digit {c : Char} (digit : c.isDigit = true) (rest : List Char) :
    startsWithIndicator (c :: rest) = false := by
  have marks : "#,[]\x7b\x7d&*!|>'\"%@\x60".toList.all (fun d => !d.isDigit) = true := by decide
  have mark : "#,[]\x7b\x7d&*!|>'\"%@\x60".toList.contains c = false := by
    rw [List.contains_eq_mem, decide_eq_false_iff_not]
    intro mem
    have other := List.all_eq_true.1 marks c mem
    rw [digit] at other
    cases other
  have notSign : c ≠ '-' := ne_of_isDigit digit (by decide)
  have notPoint : c ≠ '.' := ne_of_isDigit digit (by decide)
  have notKey : c ≠ '?' := ne_of_isDigit digit (by decide)
  have notValue : c ≠ ':' := ne_of_isDigit digit (by decide)
  rw [startsWithIndicator, mark]
  simp [List.isPrefixOf, notSign, notSign.symm, notPoint.symm, notKey, notValue]

theorem startsWithIndicator_sign {c : Char} (digit : c.isDigit = true) (rest : List Char) :
    startsWithIndicator ('-' :: c :: rest) = false := by
  have notSign : '-' ≠ c := (ne_of_isDigit digit (by decide)).symm
  have gap : followedByGap (c :: rest) = false := by
    simp [followedByGap, ne_of_isDigit digit (show ' '.isDigit = false by decide),
      ne_of_isDigit digit (show '\t'.isDigit = false by decide)]
  simp [startsWithIndicator, List.isPrefixOf, gap, notSign]

/-- An integer can stand without quotes. -/
theorem isPlain_toString (n : Int) : IsPlain (toString n).toList := by
  have digits {n : Nat} : ∃ c rest, Nat.toDigits 10 n = c :: rest ∧ c.isDigit = true := by
    obtain ⟨c, rest, spelled⟩ := List.exists_cons_of_ne_nil (@Nat.toDigits_ne_nil n 10)
    exact ⟨c, rest, spelled, Decimal.isDigit_of_mem_toDigits c (spelled ▸ List.mem_cons_self)⟩
  have chars := @Decimal.isDigit_or_eq_of_mem_toString n
  cases n with
  | ofNat n =>
    obtain ⟨c, rest, spelled, digit⟩ := @digits n
    rw [Decimal.toList_toString_ofNat, spelled] at chars ⊢
    exact isPlain_of_digits (List.cons_ne_nil _ _) chars (startsWithIndicator_digit digit rest)
  | negSucc n =>
    obtain ⟨c, rest, spelled, digit⟩ := @digits (n + 1)
    rw [Decimal.toList_toString_negSucc, spelled] at chars ⊢
    exact isPlain_of_digits (List.cons_ne_nil _ _) chars (startsWithIndicator_sign digit rest)

end Yaml

end CodeSmell
