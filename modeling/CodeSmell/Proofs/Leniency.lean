import CodeSmell.Proofs.InstanceVariables

/-!
# Warnings under other settings

The walk of a tree does not ask for settings: they come in only when a completed scope is judged,
and then only the options of the smell in question. Two consequences are stated here together
(`Tree.examine_with_other_settings`). A smell that has the same options under two settings leads to
the same warnings, whatever the options of the others are. And where options are eased, warnings can
only disappear: those that stay are the same, in the same order.
-/

set_option autoImplicit false

namespace CodeSmell

/-! ## Lists of warnings -/

theorem flatMap_sublist_flatMap {α β : Type} {f g : α → List β} (xs : List α)
    (h : ∀ x ∈ xs, (f x).Sublist (g x)) : (xs.flatMap f).Sublist (xs.flatMap g) := by
  induction xs with
  | nil => exact .slnil
  | cons x xs ih =>
    rw [List.flatMap_cons, List.flatMap_cons]
    apply List.Sublist.append
    · exact h x List.mem_cons_self
    · exact ih fun y mem => h y (List.mem_cons_of_mem x mem)

/-! ## Options of a single smell -/

/-- Options ease others: what they forbid the others forbid too. -/
structure SmellOptions.Eases (o base : SmellOptions) : Prop where
  enabled : o.enabled = true → base.enabled = true
  calls : base.maxAllowedCalls ≤ o.maxAllowedCalls
  held : base.maxInstanceVariables ≤ o.maxInstanceVariables
  allowed : ∀ entry ∈ base.allowCalls.getD [], entry ∈ o.allowCalls.getD []

namespace SmellOptions.Eases

variable {o base : SmellOptions}

/-- A limit below one counts as one under both options. -/
theorem callLimit_le (h : o.Eases base) : base.callLimit ≤ o.callLimit := by
  have := h.calls
  rw [SmellOptions.callLimit, SmellOptions.callLimit]
  omega

theorem allows_of_allows (h : o.Eases base) {signature : Text}
    (allowed : base.allows signature = true) : o.allows signature = true := by
  obtain ⟨entry, mem, matched⟩ := List.any_eq_true.1 allowed
  exact List.any_eq_true.2 ⟨entry, h.allowed entry mem, matched⟩

end SmellOptions.Eases

namespace Smell

/-- Every warning about a smell bears its name. -/
theorem smell_of_mem_find {smell : Smell} {s : Scope} {o : SmellOptions} {w : Warning}
    (mem : w ∈ smell.find s o) : w.smell = smell.name := by
  cases smell with
  | duplicateMethodCall =>
    obtain ⟨g, -, rfl⟩ := List.mem_map.1 mem
    rfl
  | featureEnvy =>
    simp only [find, Scope.envies] at mem
    split at mem
    · cases mem
    · obtain ⟨name, -, rfl⟩ := List.mem_map.1 mem
      rfl
  | instanceVariableAssumption =>
    obtain ⟨name, -, rfl⟩ := List.mem_map.1 mem
    rfl
  | tooManyInstanceVariables =>
    simp only [find, Scope.tooManyVariables] at mem
    split at mem
    · cases mem
    · rw [List.mem_singleton.1 mem]
      rfl

theorem name_injective {smell other : Smell} (h : smell.name = other.name) : smell = other := by
  cases smell <;> cases other <;> first | rfl | exact absurd h (by decide)

/-- Eased options lead to some of the warnings about a smell. -/
theorem find_sublist_of_eases (smell : Smell) (s : Scope) {o base : SmellOptions}
    (h : o.Eases base) : (smell.find s o).Sublist (smell.find s base) := by
  cases smell with
  | duplicateMethodCall =>
    refine List.Sublist.map _ (List.monotone_filter_right _ fun g reported => ?_)
    rw [Bool.and_eq_true, decide_eq_true_eq, Bool.not_eq_true'] at reported ⊢
    constructor
    · exact Int.lt_of_le_of_lt h.callLimit_le reported.1
    · by_contra allowed
      rw [Bool.not_eq_false] at allowed
      rw [h.allows_of_allows allowed] at reported
      cases reported.2
  | featureEnvy => exact List.Sublist.refl _
  | instanceVariableAssumption => exact List.Sublist.refl _
  | tooManyInstanceVariables =>
    simp only [find, Scope.tooManyVariables]
    split
    · exact List.nil_sublist _
    next above =>
      rw [if_neg fun below => above (Int.le_trans below h.held)]

end Smell

/-! ## Settings for a smell -/

/-- Two settings agree on a smell: its general options are the same, and so are its overrides under
each name of a scope. -/
def Settings.AgreeOn (smell : Smell) (c c' : Settings) : Prop :=
  c.smells.get smell = c'.smells.get smell ∧
    ∀ name, c.overrides.find? smell.name name = c'.overrides.find? smell.name name

/-- Settings ease others: they do so for each smell in each place. -/
def Settings.Ease (c base : Settings) : Prop :=
  ∀ (smell : Smell) (names : List Text),
    (c.resolve smell.name names).Eases (base.resolve smell.name names)

theorem Smell.general_name (smell : Smell) (c : Settings) :
    c.general smell.name = c.smells.get smell := by
  cases smell <;> rfl

theorem Settings.AgreeOn.resolve_eq {smell : Smell} {c c' : Settings} (h : c.AgreeOn smell c')
    (names : List Text) : c.resolve smell.name names = c'.resolve smell.name names := by
  have lookups : c.overrides.find? smell.name = c'.overrides.find? smell.name := funext h.2
  rw [resolve, resolve, lookups, smell.general_name, smell.general_name, h.1]

/-! ## Warnings about a scope -/

namespace Chain

/-- The warnings about a smell in a completed scope. -/
def warningsOf (settings : Settings) (smell : Smell) (chain : Chain) : List Warning :=
  match chain with
  | [] => []
  | s :: _ =>
    let o := settings.resolve smell.name chain.names
    if s.kind ∈ smell.kinds ∧ o.enabled then smell.find s o else []

theorem warnings_eq_flatMap (settings : Settings) (chain : Chain) :
    chain.warnings settings = Smell.all.flatMap fun smell => chain.warningsOf settings smell := by
  cases chain with
  | nil => rfl
  | cons s outer => rfl

theorem smell_of_mem_warningsOf {settings : Settings} {smell : Smell} {chain : Chain} {w : Warning}
    (mem : w ∈ chain.warningsOf settings smell) : w.smell = smell.name := by
  cases chain with
  | nil => cases mem
  | cons s outer =>
    simp only [warningsOf] at mem
    split at mem
    · exact Smell.smell_of_mem_find mem
    · cases mem

theorem filter_warningsOf (settings : Settings) (smell other : Smell) (chain : Chain) :
    (chain.warningsOf settings other).filter (fun w => w.smell = smell.name)
      = if other = smell then chain.warningsOf settings smell else [] := by
  split
  next same =>
    subst same
    exact List.filter_eq_self.2 fun w mem => decide_eq_true (smell_of_mem_warningsOf mem)
  next different =>
    refine List.filter_eq_nil_iff.2 fun w mem named => different ?_
    rw [smell_of_mem_warningsOf mem, decide_eq_true_eq] at named
    exact Smell.name_injective named

/-- Of the warnings about a scope those about a smell are found with the options of that smell
alone. -/
theorem filter_warnings (settings : Settings) (smell : Smell) (chain : Chain) :
    (chain.warnings settings).filter (fun w => w.smell = smell.name)
      = chain.warningsOf settings smell := by
  rw [warnings_eq_flatMap, List.filter_flatMap]
  simp only [filter_warningsOf]
  cases smell <;> simp [Smell.all]

theorem warningsOf_congr {smell : Smell} {c c' : Settings} (h : c.AgreeOn smell c')
    (chain : Chain) : chain.warningsOf c smell = chain.warningsOf c' smell := by
  cases chain with
  | nil => rfl
  | cons s outer => simp only [warningsOf, h.resolve_eq]

theorem warningsOf_sublist_of_ease {c base : Settings} (h : c.Ease base) (smell : Smell)
    (chain : Chain) : (chain.warningsOf c smell).Sublist (chain.warningsOf base smell) := by
  cases chain with
  | nil => exact .slnil
  | cons s outer =>
    have eased := h smell (Chain.names (s :: outer))
    simp only [warningsOf]
    split
    next applies =>
      -- what is looked for under the eased options is looked for under the others as well
      rw [if_pos ⟨applies.1, eased.enabled applies.2⟩]
      exact smell.find_sublist_of_eases s eased
    next => exact List.nil_sublist _

theorem warnings_sublist_of_ease {c base : Settings} (h : c.Ease base) (chain : Chain) :
    (chain.warnings c).Sublist (chain.warnings base) := by
  rw [warnings_eq_flatMap, warnings_eq_flatMap]
  exact flatMap_sublist_flatMap _ fun smell _ => warningsOf_sublist_of_ease h smell chain

end Chain

/-! ## Examinations -/

theorem filter_warningsAbout (settings : Settings) (source : Text) (smell : Smell)
    (chains : List Chain) :
    (warningsAbout settings source chains).filter (fun w => w.smell = smell.name)
      = chains.flatMap fun c =>
        (c.warningsOf settings smell).map fun w => { w with source := source } := by
  rw [warningsAbout, List.filter_flatMap]
  refine congrArg (List.flatMap · chains) (funext fun c => ?_)
  rw [List.filter_map, ← Chain.filter_warnings]
  rfl

theorem Tree.examine_eq_ok {t : Tree} (valid : Tree.validate (some t) = .ok ())
    (sound : t.walk.fault = none) (settings : Settings) (source : Text) :
    t.examine settings source = .ok (warningsAbout settings source t.walk.completed) := by
  rw [examine, examineInto, valid, sound]
  rfl

/-- Smells do not interfere, and eased options only remove warnings. A tree of proper shape whose
walk meets no fault is examined to the end under any two settings. The warnings about a smell on
which the settings agree are the same, and if one of the settings eases the other, its warnings are
some of the other's, unchanged and in the same order. -/
theorem Tree.examine_with_other_settings (c₁ c₂ : Settings) (source : Text) (t : Tree)
    (valid : Tree.validate (some t) = .ok ()) (sound : t.walk.fault = none) :
    ∃ ws₁ ws₂, t.examine c₁ source = .ok ws₁ ∧ t.examine c₂ source = .ok ws₂ ∧
      (∀ smell : Smell, c₁.AgreeOn smell c₂ →
        ws₁.filter (fun w => w.smell = smell.name) = ws₂.filter (fun w => w.smell = smell.name)) ∧
      (c₂.Ease c₁ → ws₂.Sublist ws₁) := by
  refine ⟨_, _, examine_eq_ok valid sound c₁ source, examine_eq_ok valid sound c₂ source, ?_, ?_⟩
  · intro smell agree
    rw [filter_warningsAbout, filter_warningsAbout]
    simp only [Chain.warningsOf_congr agree]
  · intro ease
    apply flatMap_sublist_flatMap
    intro chain _
    exact (chain.warnings_sublist_of_ease ease).map _

/-- A class with a method that repeats a call and reads a variable that is never set. -/
def scaleClass : Tree :=
  let name (text : String) := Tree.atom (.sym text)
  let call (line : Int) := Tree.known .call line [.known .ivar line [name "@rate"], name "base"]
  .known .classDef 1 [name "Scale", .atom .nil,
    .known .defn 2 [name "weigh", .known .args 2 [], call 3, call 4]]

/-- Settings that allow a call to be repeated in the method `weigh`. -/
def weighEased : Settings :=
  { overrides := [("Scale#weigh", [("DuplicateMethodCall", { maxAllowedCalls := some 2 })])] }

theorem weighEased_ease : weighEased.Ease {} := by
  intro smell names
  have general : weighEased.general smell.name = ({} : Settings).general smell.name := rfl
  rw [resolve_default, Settings.resolve, general]
  cases found : names.findSome? (weighEased.overrides.find? smell.name) with
  | none => exact ⟨id, Int.le_refl _, Int.le_refl _, fun _ mem => mem⟩
  | some o =>
    -- there is one override, and only for repeated calls
    obtain ⟨name, -, lookup⟩ := List.exists_of_findSome?_eq_some found
    simp only [weighEased, Overrides.find?, List.find?_cons, List.find?_nil] at lookup
    split at lookup
    next entry single =>
      split at single
      · cases single
        cases smell
        case duplicateMethodCall =>
          cases lookup
          exact ⟨id, by decide, Int.le_refl _, fun _ mem => mem⟩
        all_goals cases lookup
      · cases single
    next => cases lookup

set_option maxRecDepth 4000 in
/-- The repeated call is no longer reported, and the warning about the variable stays. -/
theorem scaleClass_examine_eased :
    Tree.validate (some scaleClass) = .ok () ∧ scaleClass.walk.fault = none ∧
      ({} : Settings).AgreeOn .instanceVariableAssumption weighEased ∧ weighEased.Ease {} ∧
      ∃ ws₁ ws₂, scaleClass.examine {} "scale" = .ok ws₁ ∧
        scaleClass.examine weighEased "scale" = .ok ws₂ ∧
        ws₁.filter (fun w => w.smell = Smell.instanceVariableAssumption.name)
          = ws₂.filter (fun w => w.smell = Smell.instanceVariableAssumption.name) ∧
        ws₂.Sublist ws₁ ∧
        ws₁.map Warning.details
          = [[("count", .int 2), ("name", .text "@rate.base")], [("assumption", .text "@rate")]] ∧
        ws₂.map Warning.details = [[("assumption", .text "@rate")]] := by
  have agree : ({} : Settings).AgreeOn .instanceVariableAssumption weighEased := by
    refine ⟨rfl, fun name => ?_⟩
    simp only [weighEased, Overrides.find?, List.find?_cons, List.find?_nil]
    split
    next entry single =>
      split at single <;> cases single
      rfl
    next => rfl
  obtain ⟨ws₁, ws₂, strict, eased, same, fewer⟩ :=
    Tree.examine_with_other_settings {} weighEased "scale" scaleClass rfl rfl
  refine ⟨rfl, rfl, agree, weighEased_ease, ws₁, ws₂, strict, eased, same _ agree,
    fewer weighEased_ease, ?_, ?_⟩
  · cases strict
    rfl
  · cases eased
    rfl

end CodeSmell
