import CodeSmell.Proofs.Groups
import CodeSmell.Proofs.Histories
import CodeSmell.Proofs.InstanceVariables
import CodeSmell.Proofs.MethodCalls
import Mathlib.Algebra.Ring.Int.Defs
import Mathlib.Data.List.Induction

/-!
# Rolling up

What is known about a scope after any history is a matter of the observations that roll up to it
(`Forest.rolled_up_facts`), and its instance variables are those of the uses that count for it
(`Forest.instance_variables_of_history`). Both follow from `Forest.facts_run`, once the observations
that come up to a scope are told apart by their sort.
-/

set_option autoImplicit false

namespace CodeSmell

/-! ## What is noted, sort by sort -/

namespace Observation

/-- The use of a name that an observation notes. -/
def reference? : Observation → Option (Text × Int)
  | .reference name line => some (name, line)
  | _ => none

/-- The parameter that an observation notes. -/
def parameter? : Observation → Option Text
  | .parameter name => some name
  | _ => none

/-- The local variable that an observation notes. -/
def local? : Observation → Option Text
  | .local name => some name
  | _ => none

/-- The number of statements that an observation notes. -/
def statements? : Observation → Option Int
  | .statements count => some count
  | _ => none

end Observation

namespace Facts

/-- A part of the facts that grows by what a view shows of each note grows, over several notes, by
what the view shows of them. -/
theorem part_noteAll {α β : Type} (part : Facts → β) (view : Observation → Option α)
    (grow : β → α → β)
    (step : ∀ f o, part (note f o) = ((view o).map (grow (part f))).getD (part f))
    (f : Facts) (os : List Observation) :
    part (f.noteAll os) = (os.filterMap view).foldl grow (part f) := by
  induction os generalizing f with
  | nil => rfl
  | cons o os ih =>
    rw [noteAll, List.foldl_cons, ← noteAll, ih, step, List.filterMap_cons]
    cases view o <;> rfl

/-- The uses of the object itself are counted. -/
theorem self_noteAll (f : Facts) (os : List Observation) :
    (f.noteAll os).selfUsage = f.selfUsage + os.count .useOfSelf ∧
      (f.noteAll os).dependsOnSelf = f.dependsOnSelf + os.count .dependsOnSelf := by
  induction os generalizing f with
  | nil => exact ⟨rfl, rfl⟩
  | cons o os ih =>
    rw [noteAll, List.foldl_cons, ← noteAll, (ih _).1, (ih _).2, List.count_cons, List.count_cons]
    cases o <;> simp [note, Nat.add_comm, Nat.add_left_comm]

/-- Uses of names grouped by the names, in order of first use. -/
def usesByName (uses : List (Text × Int)) : References :=
  (uses.map Prod.fst).eraseDups.map fun name =>
    (name, (uses.filter fun use => use.1 = name).map Prod.snd)

/-- The names among some, in order of first appearance. -/
def distinctNames (names : List Text) : List Text := (names.filter fun name => name ≠ []).eraseDups

/-- Names that are added one after the other are kept once each, without the empty one. -/
theorem foldl_withName (names : List Text) :
    names.foldl (fun known name => withName name known) [] = distinctNames names := by
  rw [distinctNames]
  induction names using List.reverseRecOn with
  | nil => rfl
  | append_singleton names name ih =>
    rw [List.foldl_append, ih, List.filter_append]
    by_cases empty : name = []
    · simp [withName, empty]
    · simp [withName, empty, Groups.eraseDups_concat]

/-- Sums that wrap around at each step wrap around once. -/
theorem foldl_wrapInt64 (counts : List Int) :
    counts.foldl (fun total count => wrapInt64 (total + count)) 0 = wrapInt64 counts.sum := by
  induction counts using List.reverseRecOn with
  | nil => rfl
  | append_singleton counts count ih =>
    rw [List.foldl_append, ih, List.sum_append]
    simp [wrapInt64]

theorem references_noteAll (os : List Observation) :
    (noteAll {} os).references = usesByName (os.filterMap Observation.reference?) :=
  (part_noteAll references Observation.reference? (fun refs use => refs.add use.1 use.2)
    (by rintro f (_ | _) <;> rfl) {} os).trans (Groups.collect_eq Prod.fst Prod.snd _)

theorem parameters_noteAll (os : List Observation) :
    (noteAll {} os).parameters = distinctNames (os.filterMap Observation.parameter?) :=
  (part_noteAll parameters Observation.parameter? (fun known name => withName name known)
    (by rintro f (_ | _) <;> rfl) {} os).trans (foldl_withName _)

theorem locals_noteAll (os : List Observation) :
    (noteAll {} os).locals = distinctNames (os.filterMap Observation.local?) :=
  (part_noteAll locals Observation.local? (fun known name => withName name known)
    (by rintro f (_ | _) <;> rfl) {} os).trans (foldl_withName _)

theorem statements_noteAll (os : List Observation) :
    (noteAll {} os).statements = wrapInt64 (os.filterMap Observation.statements?).sum :=
  (part_noteAll statements Observation.statements? (fun total count => wrapInt64 (total + count))
    (by rintro f (_ | _) <;> rfl) {} os).trans (foldl_wrapInt64 _)

end Facts

namespace Forest

/-! ## Rolling up -/

/-- An observation made in the scope `on` rolls up to the scope `x`: all scopes on the way are
blocks, conditionals or yields. -/
def RollsUp (events : List Event) (on x : Nat) : Prop :=
  IsAround (openings events) on x ∧
    ∀ kind ∈ below (openings events) on x, kind ∈ [.block, .conditional, .yieldCall]

instance (events : List Event) (on x : Nat) : Decidable (RollsUp events on x) :=
  inferInstanceAs (Decidable (_ ∧ _))

/-- Whether observations of a sort roll up. -/
def rolls : Observation → Bool
  | .call _ | .reference _ _ | .useOfSelf | .dependsOnSelf => true
  | _ => false

/-- Whether observations of a sort stay with the scope in which they are made. -/
def stays : Observation → Bool
  | .parameter _ | .local _ | .statements _ => true
  | _ => false

theorem comes_of_rolls {o : Observation} (h : rolls o) (events : List Event) (x : Nat)
    (kind : ScopeKind) (on : Nat) :
    comes (openings events) x kind on o = decide (RollsUp events on x) := by
  have transparent : ScopeKind.isTransparent
      = fun kind => decide (kind ∈ [ScopeKind.block, .conditional, .yieldCall]) := by
    funext kind
    cases kind <;> rfl
  cases o <;> simp_all [rolls, comes, RollsUp, Observation.reaches]

theorem comes_of_stays {o : Observation} (h : stays o) {events : List Event} {x : Nat}
    {kind : ScopeKind} {on : Nat} (isOpen : on < (openings events).length) :
    comes (openings events) x kind on o = decide (on = x) := by
  have same := isAround_and_below_eq_nil_iff isOpen x
  cases o <;> simp_all [stays, comes, Observation.reaches]

theorem filter_observed_congr {events : List Event} {p q : Nat → Observation → Bool}
    {sort : Observation → Bool}
    (same : ∀ r ∈ recordings events, sort r.2 → p r.1 r.2 = q r.1 r.2) :
    (observed events p).filter sort = (observed events q).filter sort := by
  simp only [observed, List.filter_map, List.filter_filter]
  refine congrArg (List.map Prod.snd) (List.filter_congr fun r mem => ?_)
  cases h : sort r.2 with
  | false => simp [h]
  | true => simp [h, same r mem h]

/-- A view of observations of one sort shows the same without the others. -/
theorem filterMap_filter_of_sort {α : Type} {view : Observation → Option α}
    {sort : Observation → Bool} (blind : ∀ o, sort o = false → view o = none)
    (os : List Observation) : (os.filter sort).filterMap view = os.filterMap view := by
  rw [List.filterMap_filter]
  refine List.filterMap_congr fun o _ => ?_
  cases h : sort o with
  | false => simp [blind o h]
  | true => rfl

theorem filterMap_eq_of_filter_eq {α : Type} {view : Observation → Option α}
    (sort : Observation → Bool) (blind : ∀ o, sort o = false → view o = none)
    {os os' : List Observation} (same : os.filter sort = os'.filter sort) :
    os.filterMap view = os'.filterMap view := by
  rw [← filterMap_filter_of_sort blind os, same, filterMap_filter_of_sort blind]

theorem count_eq_of_filter_eq {o : Observation} {sort : Observation → Bool} (is : sort o)
    {os os' : List Observation} (same : os.filter sort = os'.filter sort) :
    os.count o = os'.count o := by
  rw [← List.count_filter is, same, List.count_filter is]

/-- Of the observations that roll up, those that come up to a scope are the ones that roll up to
it. -/
theorem filter_rolls_observed (events : List Event) (x : Nat) (kind : ScopeKind) :
    (observed events (comes (openings events) x kind)).filter rolls
      = (observed events fun on _ => RollsUp events on x).filter rolls :=
  filter_observed_congr fun r _ sort => comes_of_rolls sort events x kind r.1

/-- The uses of names and of the object itself that are known depend on the observations that roll
up only. -/
theorem uses_noteAll_of_filter_eq {os rolled : List Observation}
    (same : os.filter rolls = rolled.filter rolls) :
    (Facts.noteAll {} os).references
        = Facts.usesByName (rolled.filterMap Observation.reference?) ∧
      (Facts.noteAll {} os).selfUsage = rolled.count .useOfSelf ∧
      (Facts.noteAll {} os).dependsOnSelf = rolled.count .dependsOnSelf := by
  refine ⟨?_, ?_, ?_⟩
  · rw [Facts.references_noteAll]
    refine congrArg Facts.usesByName (filterMap_eq_of_filter_eq rolls ?_ same)
    rintro (_ | _) <;> simp [rolls, Observation.reference?]
  · rw [(Facts.self_noteAll {} os).1, Nat.zero_add]
    exact count_eq_of_filter_eq rfl same
  · rw [(Facts.self_noteAll {} os).2, Nat.zero_add]
    exact count_eq_of_filter_eq rfl same

/-- What is known about a scope after any history. Calls, uses of names and uses of the object
itself are those of the observations that roll up to the scope, in the order in which they were
made. Parameters, local variables and statements are those of the observations made in the scope
itself. -/
theorem rolled_up_facts (events : List Event) (proper : Proper events) (x : Nat)
    (isOpen : x < (openings events).length) :
    ∃ s outer, (run events).chain x = s :: outer ∧
      (s :: outer).map Scope.kind = (lineage (openings events) x).map Prod.snd ∧
      let rolled := observed events fun on _ => RollsUp events on x
      let own := observed events fun on _ => on = x
      s.facts.calls = rolled.filterMap Observation.call? ∧
      s.facts.references = Facts.usesByName (rolled.filterMap Observation.reference?) ∧
      s.facts.selfUsage = rolled.count .useOfSelf ∧
      s.facts.dependsOnSelf = rolled.count .dependsOnSelf ∧
      s.facts.parameters = Facts.distinctNames (own.filterMap Observation.parameter?) ∧
      s.facts.locals = Facts.distinctNames (own.filterMap Observation.local?) ∧
      s.facts.statements = wrapInt64 (own.filterMap Observation.statements?).sum := by
  obtain ⟨s, outer, chain, kinds, facts⟩ := exists_chain_run proper isOpen
  refine ⟨s, outer, chain, kinds, ?_⟩
  intro rolled own
  -- each part of the facts looks at one of two sorts of observations, and on either sort to come
  -- up means to roll up or to stay
  generalize seen : observed events (comes (openings events) x s.kind) = os at facts
  have sameRolled : os.filter rolls = rolled.filter rolls := by
    rw [← seen]
    exact filter_rolls_observed events x s.kind
  have sameOwn : os.filter stays = own.filter stays := by
    rw [← seen]
    exact filter_observed_congr fun r mem sort =>
      comes_of_stays sort (lt_of_mem_recordings proper mem)
  obtain ⟨references, selfUsage, dependsOnSelf⟩ := uses_noteAll_of_filter_eq sameRolled
  rw [facts]
  refine ⟨?_, references, selfUsage, dependsOnSelf, ?_, ?_, ?_⟩
  · rw [Facts.calls_noteAll, List.nil_append]
    refine filterMap_eq_of_filter_eq rolls ?_ sameRolled
    rintro (_ | _) <;> simp [rolls, Observation.call?]
  · rw [Facts.parameters_noteAll]
    refine congrArg Facts.distinctNames (filterMap_eq_of_filter_eq stays ?_ sameOwn)
    rintro (_ | _) <;> simp [stays, Observation.parameter?]
  · rw [Facts.locals_noteAll]
    refine congrArg Facts.distinctNames (filterMap_eq_of_filter_eq stays ?_ sameOwn)
    rintro (_ | _) <;> simp [stays, Observation.local?]
  · rw [Facts.statements_noteAll]
    refine congrArg (fun counts => wrapInt64 counts.sum)
      (filterMap_eq_of_filter_eq stays ?_ sameOwn)
    rintro (_ | _) <;> simp [stays, Observation.statements?]

/-- A class with a method and a singleton method. The method holds a block with a yield in it, and a
conditional. Observations are made in all of them, in no particular order. -/
def cartHistory : List Event :=
  let scope (kind : ScopeKind) (label : Label) (tag : Keyword) (line : Int) : Opening :=
    ⟨kind, label, .known tag line [], false⟩
  [.root,
    .plant 0 (scope .classBody (.nested "::" "Cart") .classDef 1),
    .plant 1 (scope .method (.nested "#" "total") .defn 2),
    .record 2 (.parameter "items"),
    .record 2 (.call ⟨"items.size", "size", 2⟩),
    .plant 2 (scope .block .inherited .iter 3),
    .record 3 (.parameter "item"),
    .plant 3 (scope .yieldCall .inherited .yield 4),
    .record 4 (.call ⟨"item.price", "price", 4⟩),
    .record 4 (.reference "item" 4),
    .plant 2 (scope .conditional .inherited .if 5),
    .record 5 (.instanceVariable "@sum" .write 5),
    .record 3 (.instanceVariable "@items" .read 3),
    .record 4 (.instanceVariable "@rate" .lazyWrite 4),
    .plant 1 (scope .singletonMethod (.nested "." "build") .defs 7),
    .record 6 (.instanceVariable "@last" .write 7),
    .record 1 (.instanceVariable "@default" .read 8),
    .record 5 (.reference "items" 5),
    .record 3 (.reference "item" 3),
    .record 2 (.instanceVariable "@sum" .read 6),
    .record 4 .useOfSelf,
    .record 2 (.statements 2),
    .record 6 .dependsOnSelf,
    .record 5 (.call ⟨"items.any?", "any?", 5⟩)]

/-- The method knows what was observed in its block, in the yield and in the conditional, in the
order of observation. The parameter of the block is not its own, and nothing comes from its
sibling. -/
theorem cartHistory_method_facts :
    Proper cartHistory ∧ 2 < (openings cartHistory).length ∧
    ∃ s outer, (run cartHistory).chain 2 = s :: outer ∧
      s.facts.calls = [⟨"items.size", "size", 2⟩, ⟨"item.price", "price", 4⟩,
        ⟨"items.any?", "any?", 5⟩] ∧
      s.facts.references = [(Text.ofString "item", [4, 3]), (Text.ofString "items", [5])] ∧
      s.facts.selfUsage = 1 ∧ s.facts.dependsOnSelf = 0 ∧
      s.facts.parameters = ["items"] ∧ s.facts.statements = 2 := by
  refine ⟨by decide, by decide, ?_⟩
  obtain ⟨s, outer, chain, -, calls, references, self, depends, parameters, -, statements⟩ :=
    rolled_up_facts cartHistory (by decide) 2 (by decide)
  exact ⟨s, outer, chain, calls, references, self, depends, parameters, statements⟩

/-! ## Instance variables -/

/-- The kinds that have no instance variables but those of the methods in them. -/
def bodyKinds : List ScopeKind := [.classBody, .moduleBody, .root]

/-- The kind of a scope. -/
def kindOf? (sites : List Site) (x : Nat) : Option ScopeKind := (lineage sites x).head?.map Prod.snd

/-- The use of an instance variable in the scope `on` counts for the scope `x`: there is no
singleton method, class, module or outermost scope on the way, and if `x` is no part of a method
itself, there is a method on the way. -/
def CountsFor (events : List Event) (on x : Nat) : Prop :=
  IsAround (openings events) on x ∧
    .singletonMethod ∉ below (openings events) on x ∧
    (∀ kind ∈ below (openings events) on x, kind ∉ bodyKinds) ∧
    ∀ kind ∈ kindOf? (openings events) x, kind ∈ bodyKinds →
      .method ∈ below (openings events) on x

instance (events : List Event) (on x : Nat) : Decidable (CountsFor events on x) :=
  inferInstanceAs (Decidable (_ ∧ _))

theorem comes_use {events : List Event} {x : Nat} {kind : ScopeKind}
    (is : kindOf? (openings events) x = some kind) (on : Nat) {o : Observation}
    (use : o.use?.isSome) :
    comes (openings events) x kind on o = decide (CountsFor events on x) := by
  have passes (inner : List ScopeKind) : inner.all ScopeKind.passesVariables = true ↔
      .singletonMethod ∉ inner ∧ ∀ kind ∈ inner, kind ∉ bodyKinds := by
    have single (kind : ScopeKind) : kind.passesVariables = true ↔
        kind ≠ .singletonMethod ∧ kind ∉ bodyKinds := by
      cases kind <;> simp [ScopeKind.passesVariables, bodyKinds]
    simp only [List.all_eq_true, single]
    grind
  have body : kind.isBody = decide (kind ∈ bodyKinds) := by
    cases kind <;> rfl
  cases o with
  | instanceVariable name access line =>
    refine decide_eq_decide.2 (and_congr_right fun _ => ?_)
    rw [Observation.reaches, Bool.and_eq_true, passes, and_assoc]
    refine and_congr_right fun _ => and_congr_right fun _ => ?_
    by_cases h : kind ∈ bodyKinds <;> simp [is, body, h]
  | _ => cases use

/-- What happens in a class, module or outermost scope itself counts for no scope. -/
theorem not_countsFor_of_body {events : List Event} {on : Nat} {kind : ScopeKind}
    (is : kindOf? (openings events) on = some kind) (body : kind ∈ bodyKinds) (x : Nat) :
    ¬ CountsFor events on x := by
  rintro ⟨-, -, passes, inMethod⟩
  by_cases same : on = x
  · subst same
    have inside := inMethod kind is body
    rw [below_self] at inside
    cases inside
  -- the scope itself is the first one on the way
  · obtain ⟨⟨number, k⟩, first, rfl⟩ := Option.map_eq_some_iff.1 is
    obtain ⟨outer, eq⟩ := List.head?_eq_some_iff.1 first
    have here : number = on := fst_of_head?_lineage first
    refine passes k ?_ body
    simp [below, eq, here, same]

theorem isUsedFor_eq_decide (uses : List VariableUse) (name : Text) (access : Access) :
    isUsedFor uses name access = decide (∃ use ∈ uses, use.name = name ∧ use.access = access) := by
  rw [isUsedFor, Bool.eq_iff_iff]
  simp

/-- What is known about an instance variable. -/
structure VariableRecord where
  name : Text
  read : Bool
  written : Bool
  writtenLazily : Bool
  lines : List Int
deriving DecidableEq

/-- What is known about each variable, in order of first use. -/
def variableRecords (vars : InstanceVariables) : List VariableRecord :=
  vars.map fun v => ⟨v.1, InstanceVariables.isUsed v.2 .read, InstanceVariables.isUsed v.2 .write,
    InstanceVariables.isUsed v.2 .lazyWrite, v.2.map Prod.snd⟩

theorem variableRecords_filedUses (uses : List VariableUse) :
    variableRecords (filedUses uses) = (variableNames uses).map fun name =>
      ⟨name, isUsedFor uses name .read, isUsedFor uses name .write, isUsedFor uses name .lazyWrite,
        (uses.filter fun use => use.name = name).map VariableUse.line⟩ := by
  rw [variableRecords, filedUses, Groups.collect_eq, List.map_map, variableNames]
  simp only [Function.comp_def, isUsed_filed, List.map_map]

/-- The instance variables of a scope after any history are those of the uses that count for it:
each is listed once, in order of first use, with the lines of its uses and the ways in which it is
used. No use in a class, module or outermost scope itself counts for any scope. -/
theorem instance_variables_of_history (events : List Event) (proper : Proper events) (x : Nat)
    (isOpen : x < (openings events).length) :
    (∃ s outer, (run events).chain x = s :: outer ∧
      let uses := (observed events fun on _ => CountsFor events on x).filterMap Observation.use?
      variableRecords s.facts.instanceVariables =
        (uses.map VariableUse.name).eraseDups.map fun name =>
        { name
          read := ∃ use ∈ uses, use.name = name ∧ use.access = .read
          written := ∃ use ∈ uses, use.name = name ∧ use.access = .write
          writtenLazily := ∃ use ∈ uses, use.name = name ∧ use.access = .lazyWrite
          lines := (uses.filter fun use => use.name = name).map VariableUse.line }) ∧
    ∀ on, (∃ kind ∈ kindOf? (openings events) on, kind ∈ bodyKinds) → ¬ CountsFor events on x := by
  constructor
  · obtain ⟨s, outer, chain, kinds, facts⟩ := exists_chain_run proper isOpen
    have is : kindOf? (openings events) x = some s.kind := by
      rw [kindOf?, ← List.head?_map, ← kinds]
      rfl
    refine ⟨s, outer, chain, ?_⟩
    intro uses
    have counted : (observed events (comes (openings events) x s.kind)).filterMap Observation.use?
        = uses := by
      refine filterMap_eq_of_filter_eq (fun o => o.use?.isSome) (by simp) ?_
      exact filter_observed_congr fun r _ use => comes_use is r.1 use
    rw [facts, Facts.instanceVariables_noteAll, counted]
    refine (variableRecords_filedUses uses).trans ?_
    simp only [isUsedFor_eq_decide]
    rfl
  · rintro on ⟨kind, is, body⟩
    exact not_countsFor_of_body is body x

/-- The class has the variables of its method, those used in the block, the yield and the
conditional included. Those of the class body and of the singleton method are not among them. -/
theorem cartHistory_class_variables :
    Proper cartHistory ∧ 1 < (openings cartHistory).length ∧
    ∃ s outer, (run cartHistory).chain 1 = s :: outer ∧
      variableRecords s.facts.instanceVariables = [⟨"@sum", true, true, false, [5, 6]⟩,
        ⟨"@items", true, false, false, [3]⟩, ⟨"@rate", false, false, true, [4]⟩] := by
  refine ⟨by decide, by decide, ?_⟩
  obtain ⟨⟨s, outer, chain, records⟩, -⟩ :=
    instance_variables_of_history cartHistory (by decide) 1 (by decide)
  exact ⟨s, outer, chain, records.trans (by decide)⟩

end Forest

end CodeSmell
