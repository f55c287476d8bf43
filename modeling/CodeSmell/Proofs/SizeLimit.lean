import CodeSmell.Analysis
import CodeSmell.Settings.Validation
import Mathlib.Algebra.Order.Ring.Int

/-!
# The size limit

A file is skipped when its size in bytes exceeds the limit, which is given in units of 1024 bytes.
The limit in bytes is a signed 64-bit word, and a limit of `2 ^ 53` units or more does not fit into
one. Of such a limit only a residue counts (`countedUnits`), so that it can act as a small limit, or
as a negative one that no file keeps to. `size_limit_exact_iff` says for which limits and sizes a
file is skipped as it should be. Below `2 ^ 53` units this is always so, and a larger limit then
never skips a file that a smaller one admits.
-/

set_option autoImplicit false

namespace CodeSmell

/-! ## Limits in bytes -/

/-- What counts of a limit: its residue modulo `2 ^ 54` that is at least `-2 ^ 53` and less than
`2 ^ 53`. -/
def countedUnits (limit : Int) : Int := limit.bmod (2 ^ 54)

theorem wrapInt64_units (limit : Int) : wrapInt64 (limit * 1024) = 1024 * countedUnits limit := by
  simp only [wrapInt64, countedUnits, Int.bmod_def]
  split <;> split <;> omega

theorem countedUnits_lt (limit : Int) : countedUnits limit < 2 ^ 53 := by
  rw [countedUnits, Int.bmod_def]
  split <;> omega

theorem countedUnits_eq_self {limit : Int} (positive : 0 < limit) (fits : limit < 2 ^ 53) :
    countedUnits limit = limit := by
  rw [countedUnits, Int.bmod_def]
  split <;> omega

theorem exceedsLimit_iff {limit : Int} (positive : 0 < limit) (size : Nat) :
    exceedsLimit limit size = true ↔ 1024 * countedUnits limit < size := by
  rw [exceedsLimit, wrapInt64_units, Bool.and_eq_true, decide_eq_true_eq, decide_eq_true_eq]
  exact and_iff_right positive

/-- A size is judged as it should be if the limit fits, or if it makes no difference that the limit
does not fit. -/
theorem exceedsLimit_exact_iff {limit : Int} (positive : 0 < limit) (size : Nat) :
    (exceedsLimit limit size = true ↔ 1024 * limit < size) ↔
      limit < 2 ^ 53 ∨ size ≤ 1024 * countedUnits limit ∨ 1024 * limit < size := by
  rw [exceedsLimit_iff positive]
  by_cases fits : limit < 2 ^ 53
  · rw [countedUnits_eq_self positive fits]
    exact iff_of_true Iff.rfl (Or.inl fits)
  · -- what counts of the limit is less than the limit
    have less := countedUnits_lt limit
    constructor
    · intro exact
      by_cases above : 1024 * limit < size
      · exact Or.inr (Or.inr above)
      · refine Or.inr (Or.inl (not_lt.1 fun counted => above (exact.1 counted)))
    · rintro (small | below | above)
      · exact absurd small fits
      · constructor <;> intro <;> omega
      · constructor <;> intro <;> omega

/-- The limits that judge every size as they should are those that fit. -/
theorem forall_exceedsLimit_iff {limit : Int} (positive : 0 < limit) :
    (∀ size : Nat, exceedsLimit limit size = true ↔ 1024 * limit < size) ↔ limit < 2 ^ 53 := by
  constructor
  · intro exact
    by_contra unfit
    have less := countedUnits_lt limit
    -- the first size beyond what counts of the limit is skipped
    have judged := exact (1024 * countedUnits limit + 1).toNat
    rw [exceedsLimit_iff positive] at judged
    omega
  · intro fits size
    exact (exceedsLimit_exact_iff positive size).2 (Or.inl fits)

/-! ## Files -/

/-- A file is skipped because it is too large. -/
def SkippedForSize (d : Disk) (s : Settings) (file : String) : Prop :=
  analyzeFile d s file = .ok (.error (.tooLarge file s.files.maxSize))

theorem checkSize_eq_tooLarge_iff (d : Disk) (limit : Int) (file : String) :
    checkSize d limit file = .error (.tooLarge file limit) ↔
      0 < limit ∧ ∃ e, d.find file = .ok e ∧ exceedsLimit limit e.size = true := by
  rw [checkSize]
  by_cases positive : 0 < limit
  · rw [if_pos positive, and_iff_right positive, Disk.findFor]
    cases found : d.find file with
    | error fault => simp [Except.mapError, bind, Except.bind]
    | ok e =>
      simp only [Except.mapError, bind, Except.bind, Except.ok.injEq, exists_eq_left']
      split
      next exceeds => simp [exceeds]
      next admits => simp [admits]
  · rw [if_neg positive]
    simp [positive]

/-- No later step finds a file too large. -/
theorem readTree_eq_tooLarge_iff (d : Disk) (limit : Int) (file : String) :
    readTree d limit file = .error (.tooLarge file limit) ↔
      checkSize d limit file = .error (.tooLarge file limit) := by
  rw [readTree]
  cases checkSize d limit file with
  | error reason => simp [bind, Except.bind]
  | ok =>
    refine iff_of_false ?_ (by simp)
    simp only [bind, Except.bind]
    cases d.read file with
    | error e => simp [Except.mapError]
    | ok content => cases read : Tree.read content.sourceChars <;> simp [Except.mapError, read]

theorem skippedForSize_iff (d : Disk) (s : Settings) (file : String) :
    SkippedForSize d s file ↔ 0 < s.files.maxSize ∧
      ∃ e, d.find file = .ok e ∧ exceedsLimit s.files.maxSize e.size = true := by
  rw [← checkSize_eq_tooLarge_iff, ← readTree_eq_tooLarge_iff, SkippedForSize, analyzeFile]
  cases readTree d s.files.maxSize file with
  | error reason => simp
  | ok tree =>
    refine iff_of_false ?_ (by simp)
    dsimp only
    split <;> simp

theorem skippedForSize_iff_of_found {d : Disk} {s : Settings} {file : String} {e : Entry}
    (found : d.find file = .ok e) (positive : 0 < s.files.maxSize) :
    SkippedForSize d s file ↔ exceedsLimit s.files.maxSize e.size = true := by
  rw [skippedForSize_iff, and_iff_right positive, found]
  simp

/-- With a positive limit a file is skipped for its size exactly if the size exceeds 1024 times the
units that count of the limit. This is what the limit says as long as the limit is less than
`2 ^ 53`, or the size is within what counts or beyond the limit in any case; each limit from
`2 ^ 53` on is wrong for some size. So a limit that skips a file which a smaller limit admits is at
least `2 ^ 53`. -/
theorem size_limit_exact_iff (d : Disk) (s : Settings) (file : String) (e : Entry)
    (found : d.find file = .ok e) (positive : 0 < s.files.maxSize) :
    let limit := s.files.maxSize
    (SkippedForSize d s file ↔ 1024 * countedUnits limit < e.size) ∧
      ((SkippedForSize d s file ↔ 1024 * limit < e.size) ↔
        limit < 2 ^ 53 ∨ e.size ≤ 1024 * countedUnits limit ∨ 1024 * limit < e.size) ∧
      ((∀ size : Nat, exceedsLimit limit size = true ↔ 1024 * limit < size) ↔ limit < 2 ^ 53) ∧
      ∀ s' : Settings, 0 < s'.files.maxSize → s'.files.maxSize ≤ limit →
        SkippedForSize d s file → ¬ SkippedForSize d s' file → 2 ^ 53 ≤ limit := by
  intro limit
  have skipped : SkippedForSize d s file ↔ exceedsLimit limit e.size = true :=
    skippedForSize_iff_of_found found positive
  refine ⟨?_, ?_, forall_exceedsLimit_iff positive, ?_⟩
  · rw [skipped, exceedsLimit_iff positive]
  · rw [skipped]
    exact exceedsLimit_exact_iff positive e.size
  · intro s' positive' smaller skips admits
    apply not_lt.1
    intro fits
    apply admits
    have fits' : s'.files.maxSize < 2 ^ 53 := lt_of_le_of_lt smaller fits
    rw [skipped, (forall_exceedsLimit_iff positive).2 fits] at skips
    rw [skippedForSize_iff_of_found found positive', (forall_exceedsLimit_iff positive').2 fits']
    omega

/-- A disk with a small file. -/
def noteDisk : Disk := Disk.ofFiles [("note.sexp", "(nil)")] []

theorem noteDisk_find : noteDisk.find "note.sexp" = .ok (.file (Text.ofString "(nil)")) := rfl

/-- Settings with a size limit. -/
def limitedTo (limit : Int) : Settings := { files := { maxSize := limit } }

/-- The first limit that does not fit counts as a negative one and skips the file, which a limit of
one unit admits. A limit of `2 ^ 54 + 1` counts as one unit. -/
theorem note_limits_counted :
    0 < (limitedTo (2 ^ 53)).files.maxSize ∧ 0 < (limitedTo (2 ^ 54 + 1)).files.maxSize ∧
      noteDisk.find "note.sexp" = .ok (.file (Text.ofString "(nil)")) ∧
      SkippedForSize noteDisk (limitedTo (2 ^ 53)) "note.sexp" ∧
      ¬ SkippedForSize noteDisk (limitedTo (2 ^ 54 + 1)) "note.sexp" := by
  have first := size_limit_exact_iff noteDisk (limitedTo (2 ^ 53)) "note.sexp" _ noteDisk_find
    (by decide)
  have turned := size_limit_exact_iff noteDisk (limitedTo (2 ^ 54 + 1)) "note.sexp" _ noteDisk_find
    (by decide)
  refine ⟨by decide, by decide, noteDisk_find, first.1.2 (by decide), ?_⟩
  rw [turned.1]
  decide

/-- A file within a limit is skipped because the limit does not fit, though a smaller limit admits
it. The settings with the larger limit are valid. -/
theorem note_skipped_by_larger_limit :
    (limitedTo (2 ^ 53)).validate = .ok () ∧
      SkippedForSize noteDisk (limitedTo (2 ^ 53)) "note.sexp" ∧
      ¬ SkippedForSize noteDisk (limitedTo 1) "note.sexp" ∧
      ∃ e, noteDisk.find "note.sexp" = .ok e ∧
        ¬ 1024 * (limitedTo (2 ^ 53)).files.maxSize < e.size := by
  refine ⟨rfl, ?_, ?_, _, noteDisk_find, by decide⟩
  · rw [skippedForSize_iff_of_found noteDisk_find (by decide)]
    decide
  · rw [skippedForSize_iff_of_found noteDisk_find (by decide)]
    decide

end CodeSmell
