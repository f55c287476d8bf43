import CodeSmell.Proofs.Fields
import CodeSmell.Report.Result
import Mathlib.Algebra.BigOperators.Group.List.Basic
import Mathlib.Algebra.Order.Ring.Int

/-!
# Counting and scoring warnings

Warnings come to a result one at a time. `Ledger` is a result that keeps its counts as it goes: the
total, a table of severities and a table of smells. Each warning raises the total and one count of
each table by one (`sum_countUnder`). After any run of additions the tables are those that `Result`
has for the same warnings (`Ledger.consistent_ofWarnings`).

The score is what the penalties of all warnings leave of a hundred, and at least zero. Scores of
lists therefore add up as far as a hundred goes (`qualityScore_append`), the order of warnings does
not matter, and further warnings never raise the score.
-/

set_option autoImplicit false

namespace CodeSmell

/-! ## Tables of counts -/

/-- Counts one more under a name. -/
def countUnder (name : String) (counts : Fields String Nat) : Fields String Nat :=
  counts.insert name ((counts.find? name).getD 0 + 1)

theorem sum_insertField {counts : List (String × Nat)} (increasing : Increasing counts)
    (name : String) :
    ((insertField name ((counts.lookup name).getD 0 + 1) counts).map Prod.snd).sum
      = (counts.map Prod.snd).sum + 1 := by
  induction counts with
  | nil => rfl
  | cons field rest ih =>
    obtain ⟨n, count⟩ := field
    have below := ih (List.pairwise_cons.1 increasing).2
    rw [insertField]
    split
    next same =>
      rw [same, List.lookup_cons_self, Option.getD_some]
      simp only [List.map_cons, List.sum_cons]
      omega
    next different =>
      split
      next before =>
        -- a name in front of the first one has no count yet
        have absent : List.lookup name ((n, count) :: rest) = none := by
          by_contra listed
          obtain ⟨found, listed⟩ := Option.ne_none_iff_exists'.1 listed
          exact String.not_lt.2 (Fields.le_of_lookup increasing listed) before
        rw [absent, Option.getD_none]
        simp only [List.map_cons, List.sum_cons]
        omega
      next =>
        rw [List.lookup_cons, beq_eq_false_iff_ne.2 different]
        simp only [List.map_cons, List.sum_cons, below]
        omega

/-- Counting one more raises the sum of a table by one: a name has one count at most. -/
theorem sum_countUnder (counts : Fields String Nat) (name : String) :
    ((countUnder name counts).entries.map Prod.snd).sum
      = (counts.entries.map Prod.snd).sum + 1 :=
  sum_insertField counts.increasing name

theorem lookup_map_names {α : Type} (count : String → Nat) (fields : List (String × α))
    (name : String) :
    (fields.map fun f => (f.1, count f.1)).lookup name
      = if name ∈ fields.map Prod.fst then some (count name) else none := by
  induction fields with
  | nil => rfl
  | cons field rest ih =>
    simp only [List.map_cons, List.lookup_cons, ih, List.mem_cons]
    by_cases here : name = field.1
    · simp [here]
    · simp only [here, beq_eq_false_iff_ne.2 here, false_or]

section Tally

variable (key : Warning → String) (ws : List Warning)

/-- Exactly the keys that occur have a count, the number of warnings with the key. -/
theorem find?_tally (name : String) :
    (tally key ws).find? name
      = if name ∈ ws.map key then some (ws.countP fun w => key w = name) else none := by
  have names : name ∈ (Fields.ofList (ws.map fun w => (key w, ()))).entries.map Prod.fst ↔
      name ∈ ws.map key := by
    refine (Fields.mem_names_ofList _ name).trans ?_
    rw [List.map_map]
    rfl
  have listed := lookup_map_names (fun k => ws.countP fun w => key w = k)
    (Fields.ofList (ws.map fun w => (key w, ()))).entries name
  simp only [names] at listed
  exact listed

/-- One more warning counts one more under its key. -/
theorem tally_concat (w : Warning) :
    tally key (ws ++ [w]) = countUnder (key w) (tally key ws) := by
  apply Fields.ext_find?
  intro name
  rw [countUnder]
  by_cases same : name = key w
  · rw [same, Fields.find?_insert_self, find?_tally, find?_tally]
    by_cases known : key w ∈ ws.map key
    · simp [known]
    · have none : ws.countP (fun v => key v = key w) = 0 := by
        rw [List.countP_eq_zero]
        intro v mem counted
        exact known (List.mem_map.2 ⟨v, mem, of_decide_eq_true counted⟩)
      simp [known, none]
  · rw [Fields.find?_insert_of_ne same, find?_tally, find?_tally]
    have other : ¬ key w = name := fun h => same h.symm
    simp [same, other]

/-- The counts of a table add up to the number of warnings. -/
theorem sum_tally : ((tally key ws).entries.map Prod.snd).sum = ws.length := by
  induction ws using List.reverseRecOn with
  | nil => rfl
  | append_singleton ws w ih =>
    rw [tally_concat, sum_countUnder, ih, List.length_append,
      List.length_singleton]

end Tally

/-! ## Warnings added one by one -/

/-- The warnings added so far, with their number and the counts by severity and by smell. -/
structure Ledger where
  warnings : List Warning := []
  total : Nat := 0
  bySeverity : Fields String Nat := .empty
  bySmell : Fields String Nat := .empty

namespace Ledger

/-- Adds a warning. -/
def add (l : Ledger) (w : Warning) : Ledger :=
  { warnings := l.warnings ++ [w]
    total := l.total + 1
    bySeverity := countUnder w.severity.name l.bySeverity
    bySmell := countUnder w.smell l.bySmell }

/-- The ledger to which warnings have been added one after the other. -/
def ofWarnings (ws : List Warning) : Ledger := ws.foldl add {}

/-- The score: a hundred without warnings, and otherwise what the penalties leave of it, which are
summed up warning by warning. -/
def score (l : Ledger) : Int :=
  if l.total = 0 then 100
  else max (100 - l.warnings.foldl (fun penalty w => penalty + (w.penalty : Int)) 0) 0

/-- The counts of a ledger are those of its warnings. -/
structure Consistent (l : Ledger) : Prop where
  total : l.total = l.warnings.length
  bySeverity : l.bySeverity = Result.bySeverity { warnings := l.warnings }
  bySmell : l.bySmell = Result.bySmell { warnings := l.warnings }

/-- One more warning keeps the counts right. -/
theorem Consistent.add {l : Ledger} (consistent : l.Consistent) (w : Warning) :
    (l.add w).Consistent where
  total := by
    change l.total + 1 = (l.warnings ++ [w]).length
    rw [consistent.total, List.length_append, List.length_singleton]
  bySeverity := by
    change countUnder w.severity.name l.bySeverity = tally _ (l.warnings ++ [w])
    rw [consistent.bySeverity, tally_concat]
    rfl
  bySmell := by
    change countUnder w.smell l.bySmell = tally _ (l.warnings ++ [w])
    rw [consistent.bySmell, tally_concat]
    rfl

theorem ofWarnings_concat (ws : List Warning) (w : Warning) :
    ofWarnings (ws ++ [w]) = (ofWarnings ws).add w := by
  rw [ofWarnings, List.foldl_append]
  rfl

/-- After any additions the counts are right. -/
theorem consistent_ofWarnings (ws : List Warning) : (ofWarnings ws).Consistent := by
  induction ws using List.reverseRecOn with
  | nil => exact ⟨rfl, rfl, rfl⟩
  | append_singleton ws w ih =>
    rw [ofWarnings_concat]
    exact ih.add w

theorem warnings_ofWarnings (ws : List Warning) : (ofWarnings ws).warnings = ws := by
  induction ws using List.reverseRecOn with
  | nil => rfl
  | append_singleton ws w ih =>
    rw [ofWarnings_concat, add, ih]

end Ledger

/-! ## The score -/

theorem Severity.penalty_le (s : Severity) : s.penalty ≤ 40 := by
  rw [penalty]
  split_ifs <;> omega

theorem Warning.penalty_le (w : Warning) : w.penalty ≤ 60 := by
  have base := w.severity.penalty_le
  rw [penalty]
  split <;> omega

section Score

variable {ws vs : List Warning}

theorem qualityScore_eq (ws : List Warning) :
    qualityScore ws = 100 - (ws.map Warning.penalty).sum := by
  rw [qualityScore, List.sum_eq_foldr]

/-- What two lists lose of a hundred they lose together, as far as a hundred goes. -/
theorem qualityScore_append (ws vs : List Warning) :
    (qualityScore (ws ++ vs) : Int) = max 0 ((qualityScore ws : Int) + qualityScore vs - 100) := by
  rw [qualityScore_eq, qualityScore_eq, qualityScore_eq, List.map_append, List.sum_append]
  omega

theorem qualityScore_of_perm (perm : ws.Perm vs) : qualityScore vs = qualityScore ws := by
  rw [qualityScore_eq, qualityScore_eq, (perm.map Warning.penalty).sum_eq]

theorem qualityScore_append_le (ws vs : List Warning) :
    qualityScore (ws ++ vs) ≤ qualityScore ws := by
  rw [qualityScore_eq, qualityScore_eq, List.map_append, List.sum_append]
  omega

/-- Warnings that are added in whatever places do not raise the score. -/
theorem qualityScore_le_of_subperm (fewer : ws.Subperm vs) : qualityScore vs ≤ qualityScore ws := by
  obtain ⟨ws', perm, sublist⟩ := fewer
  obtain ⟨added, whole⟩ := sublist.exists_perm_append
  calc qualityScore vs
      = qualityScore (ws' ++ added) := (qualityScore_of_perm whole).symm
    _ ≤ qualityScore ws' := qualityScore_append_le ws' added
    _ = qualityScore ws := (qualityScore_of_perm perm).symm

theorem foldl_penalty (ws : List Warning) (penalty : Int) :
    ws.foldl (fun penalty w => penalty + (w.penalty : Int)) penalty
      = penalty + (ws.map Warning.penalty).sum := by
  induction ws generalizing penalty with
  | nil => simp
  | cons w ws ih =>
    rw [List.foldl_cons, ih, List.map_cons, List.sum_cons, Nat.cast_add, add_assoc]

/-- The score of a ledger is that of its warnings: that there may be none makes no difference. -/
theorem Ledger.score_ofWarnings (ws : List Warning) : (ofWarnings ws).score = qualityScore ws := by
  have warnings := warnings_ofWarnings ws
  have total : (ofWarnings ws).total = ws.length := by
    rw [(consistent_ofWarnings ws).total, warnings]
  rw [score, total, warnings, foldl_penalty, qualityScore_eq]
  split
  next none =>
    rw [List.length_eq_zero_iff.1 none]
    rfl
  next => omega

end Score

/-- Warnings are added one by one to a new ledger. Its total is the number of its warnings and the
sum of either table, and it agrees with the result for the same warnings in all counts and in the
score. The score lies between zero and a hundred and does not depend on the order of the warnings.
It never rises with further warnings. A single warning takes its penalty from a hundred, and of two
lists one after the other the score is the sum of their scores less a hundred, or zero. -/
theorem ledger_totals_and_score (ws : List Warning) :
    let l := Ledger.ofWarnings ws
    let r : Result := { warnings := ws }
    (l.warnings = ws ∧ l.bySeverity = r.bySeverity ∧ l.bySmell = r.bySmell ∧ l.score = r.score) ∧
      (l.total = l.warnings.length ∧ (l.bySeverity.entries.map Prod.snd).sum = l.total ∧
        (l.bySmell.entries.map Prod.snd).sum = l.total) ∧
      (0 ≤ l.score ∧ l.score ≤ 100) ∧
      (∀ w, (Ledger.ofWarnings [w]).score = 100 - w.penalty) ∧
      (∀ vs, ws.Perm vs → (Ledger.ofWarnings vs).score = l.score) ∧
      (∀ vs, ws.Subperm vs → (Ledger.ofWarnings vs).score ≤ l.score) ∧
      ∀ vs, (Ledger.ofWarnings (ws ++ vs)).score
        = max 0 (l.score + (Ledger.ofWarnings vs).score - 100) := by
  intro l r
  have warnings : l.warnings = ws := Ledger.warnings_ofWarnings ws
  obtain ⟨total, bySeverity, bySmell⟩ := Ledger.consistent_ofWarnings ws
  change l.total = l.warnings.length at total
  change l.bySeverity = tally _ l.warnings at bySeverity
  change l.bySmell = tally _ l.warnings at bySmell
  have score : l.score = qualityScore ws := Ledger.score_ofWarnings ws
  refine ⟨⟨warnings, ?_, ?_, score⟩, ⟨total, ?_, ?_⟩, ?_, ?_, ?_, ?_, ?_⟩
  · rw [bySeverity, warnings]
    rfl
  · rw [bySmell, warnings]
    rfl
  · rw [bySeverity, sum_tally, total]
  · rw [bySmell, sum_tally, total]
  · rw [score, qualityScore_eq]
    omega
  · intro w
    rw [Ledger.score_ofWarnings, qualityScore_eq, List.map_singleton, List.sum_singleton]
    have bound := w.penalty_le
    omega
  · intro vs perm
    rw [Ledger.score_ofWarnings, score, qualityScore_of_perm perm]
  · intro vs fewer
    rw [Ledger.score_ofWarnings, score]
    exact_mod_cast qualityScore_le_of_subperm fewer
  · intro vs
    rw [score, Ledger.score_ofWarnings, Ledger.score_ofWarnings, qualityScore_append]

/-- Two warnings about the design, one about a repeated call, and one of a severity that has no
name. -/
def stallWarnings : List Warning :=
  [{ smell := "FeatureEnvy", severity := .medium },
    { smell := "DuplicateMethodCall", severity := .low },
    { smell := "TooManyInstanceVariables", severity := .critical },
    { smell := "Other", severity := ⟨7⟩ }]

/-- The penalties are 12, 3, 60 and 0. In another order the score is the same, of some of the
warnings it is higher, and twice the warnings use up the hundred. -/
theorem stallWarnings_score :
    stallWarnings.Perm stallWarnings.reverse ∧
      stallWarnings.Subperm (stallWarnings ++ stallWarnings) ∧
      (Ledger.ofWarnings stallWarnings).score = 25 ∧
      (Ledger.ofWarnings stallWarnings.reverse).score = 25 ∧
      (Ledger.ofWarnings (stallWarnings ++ stallWarnings)).score ≤ 25 ∧
      (Ledger.ofWarnings (stallWarnings ++ stallWarnings)).score = 0 ∧
      ((Ledger.ofWarnings stallWarnings).bySeverity.entries.map Prod.snd).sum = 4 := by
  have perm : stallWarnings.Perm stallWarnings.reverse := (List.reverse_perm _).symm
  have fewer : stallWarnings.Subperm (stallWarnings ++ stallWarnings) :=
    (List.sublist_append_left _ _).subperm
  have score : (Ledger.ofWarnings stallWarnings).score = 25 := by decide
  obtain ⟨-, ⟨-, bySeverity, -⟩, -, -, ordered, falling, appended⟩ :=
    ledger_totals_and_score stallWarnings
  refine ⟨perm, fewer, score, (ordered _ perm).trans score, (falling _ fewer).trans_eq score, ?_,
    bySeverity.trans (by decide)⟩
  rw [appended, score]
  rfl

end CodeSmell
