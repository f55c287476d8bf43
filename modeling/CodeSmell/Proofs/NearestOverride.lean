import CodeSmell.Proofs.Histories
import CodeSmell.Proofs.Reports
import CodeSmell.Proofs.ScopeNames

/-!
# The nearest override

The options for a scope are looked up under the names of the scope and of those around it. That a
name is left out when it repeats the one before makes no difference to the lookup: an override under
it would have been found the first time (`Chain.findSome?_names`). Blocks, conditionals and yields
have the name of the scope around them after every history (`Forest.sharesNames_run`), and so their
names are always left out (`Chain.names_ownNamed`). `Settings.nearest_override_wins` says which
override decides, and that no other has a part in it.
-/

set_option autoImplicit false

namespace CodeSmell

/-! ## Looking up names -/

namespace Chain

variable {α : Type} (find : Text → Option α)

/-- What is found under the name of a scope. An empty name is no name. -/
def findAt (s : Scope) : Option α := if s.name = [] then none else find s.name

/-- The names of the scopes with all repetitions. -/
def repeatedNames (chain : Chain) : List Text :=
  (chain.map Scope.name).filter fun name => name ≠ []

theorem findSome?_namesAfter (chain : Chain) {last : Option Text}
    (missed : ∀ name ∈ last, find name = none) :
    (chain.namesAfter last).findSome? find = chain.findSome? (findAt find) := by
  induction chain generalizing last with
  | nil => rfl
  | cons s outer ih =>
    rw [namesAfter, List.findSome?_cons, findAt]
    by_cases empty : s.name = []
    · rw [if_pos (Or.inl empty), if_pos empty]
      exact ih missed
    rw [if_neg empty]
    by_cases again : last = some s.name
    -- the name was looked up before, in vain
    · rw [if_pos (Or.inr again), missed s.name again]
      exact ih missed
    · rw [if_neg (not_or.2 ⟨empty, again⟩), List.findSome?_cons]
      cases found : find s.name with
      | some value => rfl
      | none =>
        apply ih
        rintro name ⟨⟩
        exact found

/-- Looking up the names finds what the scopes would be found to have one by one. -/
theorem findSome?_names (chain : Chain) :
    chain.names.findSome? find = chain.findSome? (findAt find) :=
  findSome?_namesAfter find chain (by rintro _ ⟨⟩)

theorem findSome?_repeatedNames (chain : Chain) :
    chain.repeatedNames.findSome? find = chain.findSome? (findAt find) := by
  induction chain with
  | nil => rfl
  | cons s outer ih =>
    rw [repeatedNames, List.map_cons, List.filter_cons, ← repeatedNames, List.findSome?_cons,
      findAt]
    by_cases empty : s.name = []
    · simp [empty, ih]
    · simp [empty, ih, List.findSome?_cons]

end Chain

namespace Settings

variable (settings : Settings) (smell : Text)

/-- A scope carries an override for a smell, under its name. -/
def Carries (s : Scope) (o : SmellOverride) : Prop :=
  s.name ≠ [] ∧ settings.overrides.find? smell s.name = some o

theorem findAt_eq_some_iff (s : Scope) (o : SmellOverride) :
    Chain.findAt (settings.overrides.find? smell) s = some o ↔ settings.Carries smell s o := by
  rw [Chain.findAt, Carries]
  split <;> simp_all

theorem findAt_eq_none_iff (s : Scope) :
    Chain.findAt (settings.overrides.find? smell) s = none ↔
      ∀ o, ¬ settings.Carries smell s o := by
  simp only [← findAt_eq_some_iff, Option.eq_none_iff_forall_ne_some, ne_eq]

theorem resolve_congr {names names' : List Text}
    (same : names.findSome? (settings.overrides.find? smell)
      = names'.findSome? (settings.overrides.find? smell)) :
    settings.resolve smell names = settings.resolve smell names' := by
  rw [resolve, resolve, same]

/-- Either an innermost scope of a chain carries an override, which then decides, or none does. -/
theorem resolve_names_cases (chain : Chain) :
    (∃ inner s outer o, chain = inner ++ s :: outer ∧ settings.Carries smell s o ∧
      (∀ t ∈ inner, ∀ o', ¬ settings.Carries smell t o') ∧
      settings.resolve smell chain.names = o.over (settings.general smell)) ∨
    (∀ s ∈ chain, ∀ o, ¬ settings.Carries smell s o) ∧
      settings.resolve smell chain.names = settings.general smell := by
  rw [resolve, Chain.findSome?_names]
  cases found : chain.findSome? (Chain.findAt (settings.overrides.find? smell)) with
  | some o =>
    obtain ⟨inner, s, outer, split, here, before⟩ := List.findSome?_eq_some_iff.1 found
    have carries := (settings.findAt_eq_some_iff smell s o).1 here
    refine Or.inl ⟨inner, s, outer, o, split, carries, ?_, rfl⟩
    intro t mem
    exact (settings.findAt_eq_none_iff smell t).1 (before t mem)
  | none =>
    refine Or.inr ⟨fun s mem => ?_, rfl⟩
    exact (settings.findAt_eq_none_iff smell s).1 (List.findSome?_eq_none_iff.1 found s mem)

end Settings

/-! ## Names of blocks, conditionals and yields -/

namespace Chain

/-- Each block, conditional or yield has the name of the scope around it. -/
def SharesNames : Chain → Prop
  | [] => True
  | s :: outer =>
    (s.kind.isTransparent = true → s.name = (outer.head?.map Scope.name).getD []) ∧
      SharesNames outer

/-- The scopes of a chain other than blocks, conditionals and yields. -/
def ownNamed (chain : Chain) : Chain := chain.filter fun s => !s.kind.isTransparent

theorem sharesNames_congr {chain other : Chain} (same : chain.headings = other.headings)
    (shares : chain.SharesNames) : other.SharesNames := by
  induction chain generalizing other with
  | nil =>
    cases List.map_eq_nil_iff.1 same.symm
    trivial
  | cons s chain ih =>
    cases other with
    | nil => cases same
    | cons s' other =>
      obtain ⟨heading, rest⟩ := headings_cons_eq_iff.1 same
      obtain ⟨kind, name⟩ := Prod.mk.inj heading
      refine ⟨?_, ih rest shares.2⟩
      rw [← kind, ← name, ← head?_name_congr rest]
      exact shares.1

/-- A scope that has the name of the scope around it adds nothing to the names. -/
theorem namesAfter_cons_of_shared {s : Scope} {outer : Chain}
    (shared : s.name = (outer.head?.map Scope.name).getD []) (last : Option Text) :
    namesAfter last (s :: outer) = namesAfter last outer := by
  cases outer with
  | nil =>
    have empty : s.name = [] := shared
    exact if_pos (Or.inl empty)
  | cons t outer =>
    have same : s.name = t.name := shared
    rw [namesAfter, namesAfter, namesAfter, same, if_pos (Or.inr rfl)]
    split <;> rfl

theorem namesAfter_ownNamed {chain : Chain} (shares : chain.SharesNames) (last : Option Text) :
    chain.ownNamed.namesAfter last = chain.namesAfter last := by
  induction chain generalizing last with
  | nil => rfl
  | cons s outer ih =>
    obtain ⟨shared, shares⟩ := shares
    rw [ownNamed, List.filter_cons, ← ownNamed]
    cases transparent : s.kind.isTransparent with
    | true =>
      rw [namesAfter_cons_of_shared (shared transparent)]
      exact ih shares last
    | false =>
      rw [Bool.not_false, if_pos rfl, namesAfter, namesAfter, ih shares, ih shares]

/-- Scopes that share their names add nothing to the names. -/
theorem names_ownNamed {chain : Chain} (shares : chain.SharesNames) :
    chain.ownNamed.names = chain.names :=
  namesAfter_ownNamed shares none

end Chain

theorem Tree.nameIn_of_transparent {kind : ScopeKind} {t : Tree} {o : Opening}
    (opened : opening kind t = .ok o) (transparent : o.kind.isTransparent = true) (outer : Chain) :
    o.nameIn outer = (outer.head?.map Scope.name).getD [] := by
  have labelled := label_of_opening opened
  rw [(opening_eq_ok opened).1] at transparent
  have inherited : o.label = .inherited := by
    cases kind with
    | block | conditional | yieldCall => exact (Except.ok.inj labelled).symm
    | root | moduleBody | classBody | method | singletonMethod => cases transparent
  rw [Opening.nameIn, inherited]

namespace Forest

/-! ## Names after a history -/

theorem headings_chain_cons {p p' : Planted} {older older' : Forest}
    (heading : p.scope.heading = p'.scope.heading) (outer : p.outer = p'.outer)
    (size : older.length = older'.length)
    (same : ∀ y, (older.chain y).headings = (older'.chain y).headings) (x : Nat) :
    (chain (p :: older) x).headings = (chain (p' :: older') x).headings := by
  by_cases here : x = older.length
  · rw [chain_cons_self p here, chain_cons_self p' (here.trans size), ← outer]
    refine Chain.headings_cons_eq_iff.2 ⟨heading, ?_⟩
    cases p.outer with
    | none => rfl
    | some o => exact same o
  · rw [chain_cons_of_ne p here, chain_cons_of_ne p' (size ▸ here)]
    exact same x

/-- Scopes that are replaced by scopes of the same headings leave all headings as they are. -/
theorem headings_chain_replace {forest : Forest} {on : Nat} {scopes : Chain}
    (same : scopes.headings = (forest.chain on).headings) (x : Nat) :
    ((forest.replace on scopes).chain x).headings = (forest.chain x).headings := by
  induction forest generalizing on scopes x with
  | nil => rfl
  | cons p older ih =>
    by_cases here : on = older.length
    -- the chain starts at the latest scope and goes on, if at all, among the older ones
    · rw [chain_cons_self p here] at same
      cases scopes with
      | nil => cases same
      | cons s outer =>
        obtain ⟨heading, rest⟩ := Chain.headings_cons_eq_iff.1 same
        rw [replace_cons_self p here]
        cases around : p.outer with
        | none => exact headings_chain_cons heading around.symm rfl (fun _ => rfl) x
        | some o =>
          rw [around] at rest
          exact headings_chain_cons heading around.symm (length_replace older o outer) (ih rest) x
    · rw [chain_cons_of_ne p here] at same
      rw [replace_cons_of_ne p here]
      exact headings_chain_cons rfl rfl (length_replace older on scopes) (ih same) x

theorem headings_chain_record (forest : Forest) (on : Nat) (o : Observation) (x : Nat) :
    ((forest.record on o).chain x).headings = (forest.chain x).headings :=
  headings_chain_replace (Chain.headings_record (forest.chain on) o) x

/-- Each scope inside another is opened by a node. -/
def OpenedByNodes (events : List Event) : Prop :=
  ∀ on o, .plant on o ∈ events → ∃ kind t, Tree.opening kind t = .ok o

/-- One more event leaves blocks, conditionals and yields with the names of the scopes around
them. -/
theorem sharesNames_take {forest : Forest} (shares : ∀ x, (forest.chain x).SharesNames) {e : Event}
    (opened : OpenedByNodes [e]) (x : Nat) : ((forest.take e).chain x).SharesNames := by
  cases e with
  | root =>
    rw [take]
    by_cases here : x = forest.length
    · rw [chain_cons_self _ here]
      exact ⟨by rintro ⟨⟩, trivial⟩
    · rw [chain_cons_of_ne _ here]
      exact shares x
  | plant on o =>
    rw [take, plant]
    by_cases here : x = forest.length
    · rw [chain_cons_self _ here]
      obtain ⟨kind, t, opened⟩ := opened on o List.mem_cons_self
      exact ⟨fun transparent => Tree.nameIn_of_transparent opened transparent _, shares on⟩
    · rw [chain_cons_of_ne _ here]
      exact shares x
  | record on o =>
    -- notes change no names
    exact Chain.sharesNames_congr (headings_chain_record forest on o x).symm (shares x)

/-- After every history blocks, conditionals and yields have the names of the scopes around them. -/
theorem sharesNames_run {events : List Event} (opened : OpenedByNodes events) (x : Nat) :
    ((run events).chain x).SharesNames := by
  induction events using List.reverseRecOn generalizing x with
  | nil => trivial
  | append_singleton events e ih =>
    rw [run_concat]
    apply sharesNames_take
    · intro y
      exact ih (fun on o mem => opened on o (List.mem_append_left [e] mem)) y
    · exact fun on o mem => opened on o (List.mem_append_right events mem)

end Forest

namespace Settings

/-- The options for a scope are the general ones with the override of a single scope laid over them:
of the scope itself and those around it, the innermost one that has a name and carries an override
for the smell. What that override leaves open comes from the general options. Without such a scope
the general options hold. That repeated names are left out makes no difference, and those of blocks,
conditionals and yields always are. -/
theorem nearest_override_wins (settings : Settings) (smell : Text) :
    let general := settings.general smell
    (∀ chain : Chain,
      ((∃ inner s outer o, chain = inner ++ s :: outer ∧ settings.Carries smell s o ∧
          (∀ t ∈ inner, ∀ o', ¬ settings.Carries smell t o') ∧
          settings.resolve smell chain.names =
            { enabled := o.enabled.getD general.enabled
              maxAllowedCalls := o.maxAllowedCalls.getD general.maxAllowedCalls
              allowCalls := o.allowCalls.or general.allowCalls
              maxInstanceVariables := o.maxInstanceVariables.getD general.maxInstanceVariables }) ∨
        (∀ s ∈ chain, ∀ o, ¬ settings.Carries smell s o) ∧
          settings.resolve smell chain.names = general) ∧
      settings.resolve smell chain.names = settings.resolve smell chain.repeatedNames) ∧
    ∀ events, Forest.OpenedByNodes events → ∀ x,
      let chain := (Forest.run events).chain x
      chain.SharesNames ∧ chain.names = chain.ownNamed.names ∧
        settings.resolve smell chain.names = settings.resolve smell chain.ownNamed.names := by
  intro general
  refine ⟨fun chain => ⟨settings.resolve_names_cases smell chain, ?_⟩, ?_⟩
  · apply resolve_congr
    rw [Chain.findSome?_names, Chain.findSome?_repeatedNames]
  · intro events opened x chain
    have shares : chain.SharesNames := Forest.sharesNames_run opened x
    have names := (Chain.names_ownNamed shares).symm
    exact ⟨shares, names, congrArg (settings.resolve smell) names⟩

end Settings

/-- A class with a method in which a block holds a conditional. -/
def basketHistory : List Forest.Event :=
  let name : Tree := .known .const 1 [.atom (.sym "Basket")]
  [.root,
    .plant 0 ⟨.classBody, .nested "::" "Basket", .known .classDef 1 [name, .atom .nil], false⟩,
    .plant 1 ⟨.method, .nested "#" "total", .known .defn 2 [.atom (.sym "total")], false⟩,
    .record 2 .useOfSelf,
    .plant 2 ⟨.block, .inherited, .known .iter 3 [], false⟩,
    .plant 3 ⟨.conditional, .inherited, .known .if 4 [], false⟩,
    .record 4 (.reference "item" 4)]

/-- Both the class and the method override the options for repeated calls. -/
def basketSettings : Settings where
  overrides :=
    [("Basket", [("DuplicateMethodCall", { enabled := some false, maxAllowedCalls := some 5 })]),
      ("Basket#total", [("DuplicateMethodCall", { maxAllowedCalls := some 3 })])]

/-- In the conditional the override of the method decides. What it leaves open does not come from
that of the class. -/
theorem basketHistory_options :
    Forest.OpenedByNodes basketHistory ∧
    let chain := (Forest.run basketHistory).chain 4
    chain.SharesNames ∧ chain.names = [Text.ofString "Basket#total", Text.ofString "Basket"] ∧
      basketSettings.resolve "DuplicateMethodCall" chain.names
        = { enabled := true, maxAllowedCalls := 3, allowCalls := some [] } := by
  have opened : Forest.OpenedByNodes basketHistory := by
    intro on o mem
    refine ⟨o.kind, o.node, ?_⟩
    simp only [basketHistory, List.mem_cons, reduceCtorEq, Forest.Event.plant.injEq,
      List.not_mem_nil, or_false, false_or] at mem
    rcases mem with ⟨-, rfl⟩ | ⟨-, rfl⟩ | ⟨-, rfl⟩ | ⟨-, rfl⟩ <;> rfl
  obtain ⟨shares, names, options⟩ :=
    (Settings.nearest_override_wins basketSettings "DuplicateMethodCall").2 basketHistory opened 4
  exact ⟨opened, shares, names.trans (by decide), options.trans (by decide)⟩

end CodeSmell
