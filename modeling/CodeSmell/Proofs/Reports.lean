import CodeSmell.Proofs.Completion

/-!
# What an examination reports

The warnings about the scopes of an outline can be told from the outline itself
(`Item.reportedAll`): each scope is judged by what is seen from it, in order of completion. Of the
scopes around an outline only the kinds and names matter, and not what was noted for them
(`Item.reportedAll_congr`). What an outline reports is therefore what its parts report, one after
the other, and no part changes the warnings about another.

A run that no fault ends completes scopes with exactly these warnings
(`Item.flatMap_warnings_runAll`), and so `Tree.examine_eq_ok_iff` says of every tree which warnings
its examination yields.
-/

set_option autoImplicit false

namespace CodeSmell

/-! ## Kinds and names -/

/-- What a scope shows to the scopes inside it. -/
def Scope.heading (s : Scope) : ScopeKind × Text := (s.kind, s.name)

namespace Chain

/-- What the scopes of a chain show to the scopes inside them. -/
def headings (chain : Chain) : List (ScopeKind × Text) := chain.map Scope.heading

/-- Notes do not change headings. -/
theorem headings_eq_of_noteAll {chain other : Chain} {seen : Nat → Scope → List Observation}
    (h : ∀ i : Nat, chain[i]? = other[i]?.map fun s => s.noteAll (seen i s)) :
    chain.headings = other.headings := by
  refine List.ext_getElem? fun i => ?_
  rw [headings, headings, List.getElem?_map, List.getElem?_map, h, Option.map_map]
  rfl

theorem headings_record (chain : Chain) (o : Observation) :
    (chain.record o).headings = chain.headings := by
  refine List.ext_getElem? fun i => ?_
  rw [headings, headings, List.getElem?_map, List.getElem?_map, getElem?_record, Option.map_map]
  refine congrArg (Option.map · chain[i]?) (funext fun s => ?_)
  simp only [Function.comp_apply]
  split <;> rfl

theorem headings_cons_eq_iff {s s' : Scope} {chain other : Chain} :
    headings (s :: chain) = headings (s' :: other) ↔
      s.heading = s'.heading ∧ chain.headings = other.headings :=
  List.cons_eq_cons

variable {chain other : Chain}

theorem namespaceName_congr (same : chain.headings = other.headings) :
    chain.namespaceName = other.namespaceName := by
  induction chain generalizing other with
  | nil =>
    cases List.map_eq_nil_iff.1 same.symm
    rfl
  | cons s chain ih =>
    cases other with
    | nil => cases same
    | cons s' other =>
      obtain ⟨heading, rest⟩ := headings_cons_eq_iff.1 same
      obtain ⟨kind, name⟩ := Prod.mk.inj heading
      have later := ih rest
      unfold namespaceName at later ⊢
      rw [List.find?_cons, List.find?_cons, kind]
      cases s'.kind.isNamespace with
      | true => exact name
      | false => exact later

theorem namesAfter_congr (same : chain.headings = other.headings) (last : Option Text) :
    chain.namesAfter last = other.namesAfter last := by
  induction chain generalizing other last with
  | nil =>
    cases List.map_eq_nil_iff.1 same.symm
    rfl
  | cons s chain ih =>
    cases other with
    | nil => cases same
    | cons s' other =>
      obtain ⟨heading, rest⟩ := headings_cons_eq_iff.1 same
      obtain ⟨-, name⟩ := Prod.mk.inj heading
      rw [namesAfter, namesAfter, name, ih rest, ih rest]

theorem names_congr (same : chain.headings = other.headings) : chain.names = other.names :=
  namesAfter_congr same none

theorem head?_name_congr (same : chain.headings = other.headings) :
    (chain.head?.map Scope.name).getD [] = (other.head?.map Scope.name).getD [] := by
  have head := congrArg (fun hs => (hs.head?.map Prod.snd).getD []) same
  simpa [headings, List.head?_map, Option.map_map, Function.comp_def, Scope.heading] using head

/-- A new scope depends on the headings of the scopes around it alone. -/
theorem scopeIn_congr (same : chain.headings = other.headings) (o : Opening) :
    o.scopeIn chain = o.scopeIn other := by
  have name : o.nameIn chain = o.nameIn other := by
    unfold Opening.nameIn
    rw [namespaceName_congr same, head?_name_congr same]
  rw [Opening.scopeIn, Opening.scopeIn, name]

/-- The warnings about a scope depend on the headings of the scopes around it alone. -/
theorem warnings_congr (settings : Settings) (s : Scope) (same : chain.headings = other.headings) :
    Chain.warnings settings (s :: chain) = Chain.warnings settings (s :: other) := by
  have names : Chain.names (s :: chain) = Chain.names (s :: other) :=
    names_congr (headings_cons_eq_iff.2 ⟨rfl, same⟩)
  unfold Chain.warnings
  simp only [names]

end Chain

/-! ## What an outline reports -/

namespace Item

variable (settings : Settings)

mutual

/-- The warnings about the scopes of a part of an outline inside given scopes, in order of
completion. -/
def reported (around : Chain) : Item → List Warning
  | .note _ => []
  | .scope o body =>
    let opened := o.scopeIn around
    reportedAll (opened :: around) body
      ++ Chain.warnings settings (opened.noteAll (seenAll [] o.kind body) :: around)
  | .fault _ => []

/-- The warnings about the scopes of an outline inside given scopes, in order of completion. -/
def reportedAll (around : Chain) : List Item → List Warning
  | [] => []
  | item :: rest => reported around item ++ reportedAll around rest

end

theorem reportedAll_eq_flatMap (around : Chain) (items : List Item) :
    reportedAll settings around items = items.flatMap (reported settings around) := by
  induction items with
  | nil => rfl
  | cons item rest ih => rw [reportedAll, ih, List.flatMap_cons]

theorem reportedAll_append (around : Chain) (items more : List Item) :
    reportedAll settings around (items ++ more)
      = reportedAll settings around items ++ reportedAll settings around more := by
  simp only [reportedAll_eq_flatMap, List.flatMap_append]

theorem reportedAll_flatMap {α : Type} (around : Chain) (xs : List α) (f : α → List Item) :
    reportedAll settings around (xs.flatMap f)
      = xs.flatMap fun x => reportedAll settings around (f x) := by
  simp only [reportedAll_eq_flatMap, List.flatMap_assoc]

theorem reportedAll_notes (around : Chain) (os : List Observation) :
    reportedAll settings around (Tree.notes os) = [] := by
  induction os with
  | nil => rfl
  | cons o os ih => exact ih

/-- What was noted for the scopes around an outline does not change what it reports. -/
theorem reportedAll_congr (items : List Item) {around other : Chain}
    (same : around.headings = other.headings) :
    reportedAll settings around items = reportedAll settings other items := by
  induction items using outline_induction generalizing around other with
  | nil => rfl
  | note o rest ih => exact ih same
  | scope o body rest ihBody ihRest =>
    have opened := Chain.scopeIn_congr same o
    have inside : reportedAll settings (o.scopeIn around :: around) body
        = reportedAll settings (o.scopeIn other :: other) body :=
      ihBody (Chain.headings_cons_eq_iff.2 ⟨congrArg Scope.heading opened, same⟩)
    rw [reportedAll, reportedAll, reported, reported, inside, ihRest same, opened,
      Chain.warnings_congr settings _ same]
  | fault f rest ih => exact ih same

/-- A run that no fault ends completes scopes with the warnings that the outline reports. -/
theorem flatMap_warnings_runAll (items : List Item) (sound : faultAmong? items = none)
    (chain : Chain) :
    (runAll items chain).completed.flatMap (Chain.warnings settings)
      = reportedAll settings chain items := by
  induction items using outline_induction generalizing chain with
  | nil => rfl
  | note o rest ih =>
    rw [faultAmong?, fault?, Option.none_or] at sound
    rw [runAll_note, ih sound, reportedAll_congr settings rest (chain.headings_record o)]
    rfl
  | scope o body rest ihBody ihRest =>
    rw [faultAmong?, fault?, Option.or_eq_none_iff] at sound
    -- the run has noted for the scope what is seen from it, and left the headings around it alone
    have run := getElem?_chain_runAll body sound.1 (o.scopeIn chain :: chain)
    obtain ⟨outer, completed⟩ :=
      List.head?_eq_some_iff.1 ((List.head?_eq_getElem? ..).trans (run 0))
    have around : Chain.headings outer = chain.headings := by
      have all := Chain.headings_eq_of_noteAll run
      rw [completed, Chain.headings_cons_eq_iff] at all
      exact all.2
    rw [runAll_scope o sound.1, List.flatMap_append, List.flatMap_cons, ihBody sound.1,
      ihRest sound.2, completed, List.tail_cons, reportedAll_congr settings rest around,
      Chain.warnings_congr settings _ around, reportedAll, reported, List.append_assoc]
    rfl
  | fault f rest _ => simp [faultAmong?, fault?] at sound

end Item

/-! ## What an examination reports -/

/-- A warning with another source. -/
def Warning.withSource (source : Text) (w : Warning) : Warning := { w with source := source }

namespace Tree

open Item

/-- The examination of a tree succeeds exactly if the tree has the proper shape and its outline
holds no fault. It then yields what the outline reports. -/
theorem examine_eq_ok_iff {settings : Settings} {source : Text} {t : Tree} {ws : List Warning} :
    t.examine settings source = .ok ws ↔
      t.malformed? = none ∧ faultAmong? t.outline = none ∧
        ws = (reportedAll settings [Scope.root] t.outline).map (Warning.withSource source) := by
  cases shape : t.malformed? with
  | some m => simp [examine, examineInto, validate, shape]
  | none =>
    cases fault : faultAmong? t.outline with
    | some f => simp [examine, examineInto, validate, shape, fault_walk, fault]
    | none =>
      have reported := flatMap_warnings_runAll settings t.outline fault [Scope.root]
      rw [← reported, List.map_flatMap]
      simp only [examine, examineInto, validate, shape, fault_walk, fault, Option.map_none,
        List.nil_append, Except.ok.injEq, true_and]
      exact eq_comm

end Tree

end CodeSmell
