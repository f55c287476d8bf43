import CodeSmell.Proofs.InstanceVariables
import CodeSmell.Proofs.Reports

/-!
# The order of members does not matter

Members of a class or module may stand in any order. What a member notes stays in the scopes that it
opens, and of what reaches the class around it only the uses of instance variables count. Which
variables are assumed or held does not depend on the order of their uses, so the class is judged
alike, and every member is judged by itself.

`Item.Interchangeable` says of two outlines that it is the same to report about one or the other, up
to order. It is kept when outlines are put together and when they stand in a class or module
(`Item.Interchangeable.scope`). Reordering the members of a class or module anywhere inside of
blocks, classes and modules therefore leads to the same warnings (`Tree.examine_perm_of_reordered`).
-/

set_option autoImplicit false

namespace CodeSmell

/-! ## Uses of variables in another order -/

section Uses

variable {uses uses' : List VariableUse}

theorem variableNames_perm (h : uses.Perm uses') :
    (variableNames uses).Perm (variableNames uses') := by
  refine (List.perm_ext_iff_of_nodup (nodup_variableNames uses) (nodup_variableNames uses')).2 ?_
  intro name
  simp only [variableNames, List.mem_eraseDups]
  exact (h.map VariableUse.name).mem_iff

theorem isUsedFor_perm (h : uses.Perm uses') (name : Text) (access : Access) :
    isUsedFor uses name access = isUsedFor uses' name access :=
  h.any_eq

theorem assumedNames_perm (h : uses.Perm uses') :
    (assumedNames uses).Perm (assumedNames uses') := by
  simp only [assumedNames, isUsedFor_perm h]
  exact (variableNames_perm h).filter _

theorem heldNames_perm (h : uses.Perm uses') : (heldNames uses).Perm (heldNames uses') := by
  simp only [heldNames, isUsedFor_perm h]
  exact (variableNames_perm h).filter _

end Uses

/-! ## Classes for which the same was noted in another order -/

/-- Two scopes have the same heading and line, and the same uses of variables are noted for them in
some order. -/
structure Scope.SameUses (s s' : Scope) : Prop where
  heading : s.heading = s'.heading
  line : s.line = s'.line
  uses : ∃ uses uses' : List VariableUse, s.facts.instanceVariables = filedUses uses ∧
    s'.facts.instanceVariables = filedUses uses' ∧ uses.Perm uses'

namespace Scope.SameUses

variable {s s' : Scope}

theorem warning_eq (h : s.SameUses s') (smell : Smell) (message : Text)
    (details : List (String × Datum)) :
    s.warning smell [s.line] message details = s'.warning smell [s'.line] message details := by
  have name : s.name = s'.name := congrArg Prod.snd h.heading
  simp only [Scope.warning, name, h.line]

theorem assumptions_perm (h : s.SameUses s') : s.assumptions.Perm s'.assumptions := by
  obtain ⟨uses, uses', filed, filed', same⟩ := h.uses
  rw [assumptions, assumptions, filed, filed', assumed_filedUses, assumed_filedUses]
  simp only [h.warning_eq]
  exact (assumedNames_perm same).map _

theorem tooManyVariables_eq (h : s.SameUses s') (o : SmellOptions) :
    s.tooManyVariables o = s'.tooManyVariables o := by
  obtain ⟨uses, uses', filed, filed', same⟩ := h.uses
  have count : (heldNames uses).length = (heldNames uses').length := (heldNames_perm same).length_eq
  simp only [tooManyVariables, filed, filed', held_filedUses, count, h.warning_eq]

/-- The warnings about a class or module do not depend on the order of the uses. -/
theorem warnings_perm (h : s.SameUses s') (isClass : s.kind = .classBody ∨ s.kind = .moduleBody)
    (settings : Settings) (around : Chain) :
    (Chain.warnings settings (s :: around)).Perm (Chain.warnings settings (s' :: around)) := by
  have kind : s.kind = s'.kind := congrArg Prod.fst h.heading
  have names : Chain.names (s :: around) = Chain.names (s' :: around) :=
    Chain.names_congr (Chain.headings_cons_eq_iff.2 ⟨h.heading, rfl⟩)
  rw [warnings_class settings around isClass, warnings_class settings around (kind ▸ isClass),
    names, h.tooManyVariables_eq]
  refine List.Perm.append_right _ ?_
  split
  · exact h.assumptions_perm
  · exact .refl []

end Scope.SameUses

/-! ## Outlines that report the same -/

namespace Item

/-- Whatever scopes two outlines stand in, the second has no fault if the first has none, the same
is seen of both, and both report the same, up to order. -/
structure Interchangeable (settings : Settings) (items items' : List Item) : Prop where
  sound : faultAmong? items = none → faultAmong? items' = none
  seen : ∀ inner kind, (seenAll inner kind items).Perm (seenAll inner kind items')
  reported : ∀ around,
    (reportedAll settings around items).Perm (reportedAll settings around items')

/-- Nothing comes out of a class or module. -/
theorem seenAll_of_namespace {inner : List ScopeKind} {k : ScopeKind} (mem : k ∈ inner)
    (closed : k.isNamespace) (kind : ScopeKind) (items : List Item) :
    seenAll inner kind items = [] := by
  have blocked (more : List ScopeKind) (o : Observation) (_ : (some o).isSome) :
      o.reaches (more ++ inner) kind = false := by
    have outer : k ∈ more ++ inner := List.mem_append_right more mem
    have stops : k.isTransparent = false ∧ k.passesVariables = false := by
      cases k
      case moduleBody | classBody => exact ⟨rfl, rfl⟩
      all_goals cases closed
    have kept : (more ++ inner).all ScopeKind.isTransparent = false :=
      List.all_eq_false.2 ⟨k, outer, by simp [stops.1]⟩
    have owned : (more ++ inner).all ScopeKind.passesVariables = false :=
      List.all_eq_false.2 ⟨k, outer, by simp [stops.2]⟩
    cases o
    case call | reference | useOfSelf | dependsOnSelf => exact kept
    case instanceVariable => rw [Observation.reaches, owned, Bool.false_and]
    case parameter | «local» | statements =>
      exact List.isEmpty_eq_false_iff.2 (List.ne_nil_of_mem outer)
  rw [← filterMap_seenAll_eq_nil some blocked items, List.filterMap_some]

namespace Interchangeable

variable {settings : Settings} {items items' more more' : List Item}

theorem refl (items : List Item) : Interchangeable settings items items where
  sound := id
  seen _ _ := .refl _
  reported _ := .refl _

theorem append (first : Interchangeable settings items items')
    (second : Interchangeable settings more more') :
    Interchangeable settings (items ++ more) (items' ++ more') where
  sound := by
    rw [faultAmong?_append, faultAmong?_append, Option.or_eq_none_iff, Option.or_eq_none_iff]
    exact And.imp first.sound second.sound
  seen inner kind := by
    rw [seenAll_append, seenAll_append]
    exact (first.seen inner kind).append (second.seen inner kind)
  reported around := by
    rw [reportedAll_append, reportedAll_append]
    exact (first.reported around).append (second.reported around)

/-- The outlines of several trees may follow each other in any order. -/
theorem of_perm {ts ts' : List Tree} (h : ts.Perm ts') :
    Interchangeable settings (ts.flatMap Tree.outline) (ts'.flatMap Tree.outline) where
  sound := by
    rw [Tree.faultAmong?_flatMap, Tree.faultAmong?_flatMap]
    intro all t mem
    exact all t (h.mem_iff.2 mem)
  seen inner kind := by
    rw [seenAll_flatMap, seenAll_flatMap]
    exact h.flatMap_right _
  reported around := by
    rw [reportedAll_flatMap, reportedAll_flatMap]
    exact h.flatMap_right _

/-- A class or module keeps outlines interchangeable: nothing is seen of what it holds, and the
order of what is seen in it does not matter. -/
theorem scope {o o' : Opening} (isClass : o.kind = .classBody ∨ o.kind = .moduleBody)
    (kind : o.kind = o'.kind) (label : o.label = o'.label) (line : o.node.line = o'.node.line)
    (inside : Interchangeable settings items items') :
    Interchangeable settings [.scope o items] [.scope o' items'] where
  sound := by
    simp only [faultAmong?, fault?, Option.or_none]
    exact inside.sound
  seen inner k := by
    have closed : o.kind.isNamespace := by
      rcases isClass with is | is <;> rw [is] <;> rfl
    simp only [seenAll, Item.seen, ← kind, seenAll_of_namespace List.mem_cons_self closed]
    exact .refl _
  reported around := by
    have heading : (o.scopeIn around).heading = (o'.scopeIn around).heading := by
      simp only [Opening.scopeIn, Opening.nameIn, Scope.heading, kind, label]
    have headings : Chain.headings (o.scopeIn around :: around)
        = Chain.headings (o'.scopeIn around :: around) :=
      Chain.headings_cons_eq_iff.2 ⟨heading, rfl⟩
    have completed : ((o.scopeIn around).noteAll (seenAll [] o.kind items)).SameUses
        ((o'.scopeIn around).noteAll (seenAll [] o'.kind items')) := by
      refine ⟨heading, line, _, _, Facts.instanceVariables_noteAll ..,
        Facts.instanceVariables_noteAll .., ?_⟩
      rw [← kind]
      exact (inside.seen [] o.kind).filterMap _
    simp only [reportedAll, Item.reported, List.append_nil]
    refine List.Perm.append ?_ (completed.warnings_perm isClass settings around)
    rw [← reportedAll_congr settings items' headings]
    exact inside.reported _

end Interchangeable

end Item

/-! ## Trees with members in another order -/

namespace Tree

open Item

/-- The slot from which on the children of a class or module are its members. -/
def memberStart? : Keyword → Option Nat
  | .moduleDef => some 1
  | .classDef => some 2
  | _ => none

/-- Blocks, modules and classes. -/
def holdsMembers : Keyword → Bool
  | .block | .moduleDef | .classDef => true
  | _ => false

/-- The members of one class or module, which stands inside of blocks, modules and classes only, are
in another order. -/
inductive Reordered : Tree → Tree → Prop
  | members {k : Keyword} {line : Int} {slots ts ts' : List Tree}
    (start : memberStart? k = some slots.length) (order : ts.Perm ts') :
    Reordered (.known k line (slots ++ ts)) (.known k line (slots ++ ts'))
  | inside {k : Keyword} {line : Int} {before after : List Tree} {t t' : Tree}
    (holds : holdsMembers k) (inner : Reordered t t') :
    Reordered (.known k line (before ++ t :: after)) (.known k line (before ++ t' :: after))

theorem memberStart?_cases {k : Keyword} {slots : List Tree}
    (h : memberStart? k = some slots.length) :
    (k = .moduleDef ∧ ∃ name, slots = [name]) ∨
      (k = .classDef ∧ ∃ name superclass, slots = [name, superclass]) := by
  unfold memberStart? at h
  split at h
  · exact .inl ⟨rfl, List.length_eq_one_iff.1 (Option.some.inj h).symm⟩
  · exact .inr ⟨rfl, List.length_eq_two.1 (Option.some.inj h).symm⟩
  · cases h

theorem holdsMembers_cases {k : Keyword} (h : holdsMembers k) :
    k = .block ∨ k = .moduleDef ∨ k = .classDef := by
  unfold holdsMembers at h
  grind

namespace Reordered

variable {t t' : Tree}

theorem exists_known (h : Reordered t t') :
    ∃ k line cs cs', t = .known k line cs ∧ t' = .known k line cs' ∧ holdsMembers k := by
  cases h with
  | members start _ =>
    refine ⟨_, _, _, _, rfl, rfl, ?_⟩
    rcases memberStart?_cases start with ⟨rfl, -⟩ | ⟨rfl, -⟩ <;> rfl
  | inside holds _ => exact ⟨_, _, _, _, rfl, rfl, holds⟩

theorem hasTag_eq (h : Reordered t t') (k : Keyword) : t.hasTag k = t'.hasTag k := by
  obtain ⟨_, _, _, _, rfl, rfl, _⟩ := h.exists_known
  rfl

/-- A block, module or class is no name of a scope. -/
theorem isScopeName_eq (h : Reordered t t') : t.isScopeName = false := by
  obtain ⟨k, _, _, _, rfl, -, holds⟩ := h.exists_known
  rcases holdsMembers_cases holds with rfl | rfl | rfl <;> rfl

/-- A block, module or class makes no struct. -/
theorem isStructTemplate_eq (h : Reordered t t') :
    t.isStructTemplate = false ∧ t'.isStructTemplate = false := by
  obtain ⟨k, _, _, _, rfl, rfl, holds⟩ := h.exists_known
  rcases holdsMembers_cases holds with rfl | rfl | rfl <;> exact ⟨rfl, rfl⟩

theorem countStatements_eq (h : Reordered t t') (before after : List Tree) :
    countStatements (before ++ t :: after) = countStatements (before ++ t' :: after) := by
  have head : (before ++ t :: after).head?.any (hasTag .args)
      = (before ++ t' :: after).head?.any (hasTag .args) := by
    cases before with
    | nil => exact h.hasTag_eq .args
    | cons first rest => rfl
  have last : (before ++ t :: after).getLast?.any (hasTag .nil)
      = (before ++ t' :: after).getLast?.any (hasTag .nil) := by
    rw [List.getLast?_append, List.getLast?_append]
    cases after with
    | nil => exact h.hasTag_eq .nil
    | cons next rest => simp
  simp only [countStatements, head, last, List.length_append, List.length_cons]

/-- What is reordered in a class or module of proper shape does not stand in the place of its
name. -/
theorem exists_name (h : Reordered t t') {k : Keyword} (isClass : k = .moduleDef ∨ k = .classDef)
    {line : Int} {before after : List Tree}
    (proper : (known k line (before ++ t :: after)).ownDefect? = none) :
    ∃ name rest, before = name :: rest := by
  cases before with
  | cons name rest => exact ⟨name, rest, rfl⟩
  | nil =>
    have unnamed := h.isScopeName_eq
    rcases isClass with rfl | rfl
    · simp [ownDefect?, defect?, unnamed] at proper
    · simp only [ownDefect?, defect?, List.nil_append, List.getElem?_cons_zero, Option.any_some,
        unnamed] at proper
      split at proper <;> cases proper

/-- A tree keeps its proper shape when members are reordered. -/
theorem malformed?_eq_none (h : Reordered t t') (proper : t.malformed? = none) :
    t'.malformed? = none := by
  induction h with
  | @members k line slots ts ts' start order =>
    obtain ⟨own, below⟩ := (malformed?_step _).1 proper
    refine (malformed?_step _).2 ⟨?_, fun u mem => below u ?_⟩
    · rcases memberStart?_cases start with ⟨rfl, name, rfl⟩ | ⟨rfl, name, superclass, rfl⟩
      · exact own
      · simpa [ownDefect?, defect?, order.length_eq] using own
    · exact (order.append_left slots).mem_iff.2 mem
  | @inside k line before after t t' holds inner ih =>
    obtain ⟨own, below⟩ := (malformed?_step _).1 proper
    have member : t'.malformed? = none := ih (below t (by simp [children]))
    refine (malformed?_step _).2 ⟨?_, fun u mem => ?_⟩
    · rcases holdsMembers_cases holds with rfl | isClass
      · rfl
      · obtain ⟨name, rest, rfl⟩ := inner.exists_name isClass own
        rcases isClass with rfl | rfl <;> simpa [ownDefect?, defect?] using own
    · simp only [children, List.mem_append, List.mem_cons] at mem below
      rcases mem with mem | rfl | mem
      · exact below u (.inl mem)
      · exact member
      · exact below u (.inr (.inr mem))

end Reordered

/-! ## Outlines of reordered trees -/

variable {settings : Settings}

/-- Classes or modules with the same label and line are interchangeable if their bodies are. -/
theorem interchangeable_of_bodies {kind : ScopeKind} {t t' : Tree}
    (isClass : kind = .classBody ∨ kind = .moduleBody) (found : t.scopeKind? = some kind)
    (found' : t'.scopeKind? = some kind) (moves : t.moves = []) (moves' : t'.moves = [])
    (line : t.line = t'.line) (named : renderAt t.children 0 = renderAt t'.children 0)
    (bodies : Interchangeable settings ((t.bodyOf kind).flatMap outline)
      ((t'.bodyOf kind).flatMap outline)) :
    Interchangeable settings t.outline t'.outline := by
  have entry (cs : List Tree) : entryNotes kind cs = [] := by
    rcases isClass with rfl | rfl <;> rfl
  have labels : label kind t = label kind t' := by
    rcases isClass with rfl | rfl <;> simp only [label, named]
  simp only [outline_eq_moves, moves, moves', ownScope, found, found', scopeOutline, entry, opened,
    opening, labels, Option.map_some, Option.toList_some, List.flatMap_nil, List.nil_append,
    notes_nil]
  cases label kind t' with
  | error e => exact .refl _
  | ok l => exact .scope isClass rfl rfl line bodies

theorem bodyOf_class (line : Int) (name superclass : Tree) (ts : List Tree) :
    (known .classDef line (name :: superclass :: ts)).bodyOf .classBody
      = if superclass.isStructTemplate then [] else ts := by
  have template : hasStructTemplate (name :: superclass :: ts) = superclass.isStructTemplate := rfl
  rw [bodyOf, hasWalkedBody, children, template]
  cases superclass.isStructTemplate <;> rfl

theorem interchangeable_between {t t' : Tree}
    (h : Interchangeable settings t.outline t'.outline) (before after : List Tree) :
    Interchangeable settings ((before ++ t :: after).flatMap outline)
      ((before ++ t' :: after).flatMap outline) := by
  simp only [List.flatMap_append, List.flatMap_cons]
  exact (Interchangeable.refl _).append (h.append (.refl _))

/-- Trees whose members are in another order are interchangeable. -/
theorem Reordered.interchangeable {t t' : Tree} (h : Reordered t t')
    (proper : t.malformed? = none) : Interchangeable settings t.outline t'.outline := by
  induction h with
  | @members k line slots ts ts' start order =>
    rcases memberStart?_cases start with ⟨rfl, name, rfl⟩ | ⟨rfl, name, superclass, rfl⟩
    · exact interchangeable_of_bodies (.inr rfl) rfl rfl rfl rfl rfl rfl (.of_perm order)
    · refine interchangeable_of_bodies (.inl rfl) rfl rfl rfl rfl rfl rfl ?_
      simp only [List.cons_append, List.nil_append, bodyOf_class]
      -- the members of a struct are not walked, in whatever order
      split
      · exact .refl _
      · exact .of_perm order
  | @inside k line before after t t' holds inner ih =>
    obtain ⟨own, below⟩ := (malformed?_step _).1 proper
    have member := ih (below t (by simp [children]))
    rcases holdsMembers_cases holds with rfl | isClass
    · rw [outline_block, outline_block, inner.countStatements_eq]
      exact (Interchangeable.refl _).append (interchangeable_between member before after)
    · obtain ⟨name, rest, rfl⟩ := inner.exists_name isClass own
      rcases isClass with rfl | rfl
      · refine interchangeable_of_bodies (.inr rfl) rfl rfl rfl rfl rfl rfl ?_
        exact interchangeable_between member rest after
      · refine interchangeable_of_bodies (.inl rfl) rfl rfl rfl rfl rfl rfl ?_
        cases rest with
        | nil =>
          -- what stands in the place of the superclass is not walked
          simp only [List.cons_append, List.nil_append, bodyOf_class, inner.isStructTemplate_eq]
          exact .refl _
        | cons superclass rest =>
          simp only [List.cons_append, bodyOf_class]
          split
          · exact .refl _
          · exact interchangeable_between member rest after

/-- The order of members does not matter: when the members of a class or module that stands inside
of blocks, modules and classes are put in another order, the examination of the tree yields the same
warnings, each as often as before. -/
theorem examine_perm_of_reordered (settings : Settings) (source : Text) {t t' : Tree}
    (order : Reordered t t') (ws : List Warning) (h : t.examine settings source = .ok ws) :
    ∃ ws', t'.examine settings source = .ok ws' ∧ ws.Perm ws' := by
  obtain ⟨proper, sound, rfl⟩ := examine_eq_ok_iff.1 h
  have outlines : Interchangeable settings t.outline t'.outline := order.interchangeable proper
  refine ⟨_, examine_eq_ok_iff.2 ⟨?_, ?_, rfl⟩, ?_⟩
  · exact order.malformed?_eq_none proper
  · exact outlines.sound sound
  · exact (outlines.reported [Scope.root]).map (Warning.withSource source)

end Tree

/-- A method that repeats a call and reads a variable. -/
def costMethod : Tree :=
  let name (text : String) := Tree.atom (.sym text)
  let call (line : Int) := Tree.known .call line [.known .lvar line [name "rate"], name "base"]
  .known .defn 3 [name "cost", call 4, call 5, .known .ivar 6 [name "@weight"]]

/-- A method that reads another variable. -/
def labelMethod : Tree :=
  let name (text : String) := Tree.atom (.sym text)
  .known .defn 7 [name "label", .known .ivar 8 [name "@code"]]

/-- A class with given members in a module. -/
def depotModule (members : List Tree) : Tree :=
  let name (text : String) := Tree.atom (.sym text)
  .known .moduleDef 1 [name "Depot",
    .known .block 2 [.known .classDef 2 ([name "Parcel", .atom .nil] ++ members)]]

set_option maxRecDepth 4000 in
/-- The order of the methods shows in the order of the warnings about the class and in nothing
else. -/
theorem depotModule_reordered :
    Tree.Reordered (depotModule [costMethod, labelMethod]) (depotModule [labelMethod, costMethod]) ∧
      ∃ ws ws', (depotModule [costMethod, labelMethod]).examine {} "depot" = .ok ws ∧
        (depotModule [labelMethod, costMethod]).examine {} "depot" = .ok ws' ∧ ws.Perm ws' ∧
        ws.map Warning.details
          = [[("count", .int 2), ("name", .text "rate.base")], [("name", .text "rate")],
            [("assumption", .text "@weight")], [("assumption", .text "@code")]] ∧
        ws'.map Warning.details
          = [[("count", .int 2), ("name", .text "rate.base")], [("name", .text "rate")],
            [("assumption", .text "@code")], [("assumption", .text "@weight")]] := by
  have order : Tree.Reordered (depotModule [costMethod, labelMethod])
      (depotModule [labelMethod, costMethod]) := by
    have swapped : [costMethod, labelMethod].Perm [labelMethod, costMethod] := .swap ..
    exact @Tree.Reordered.inside .moduleDef 1 [_] [] _ _ rfl
      (@Tree.Reordered.inside .block 2 [] [] _ _ rfl
        (@Tree.Reordered.members .classDef 2 [_, _] _ _ rfl swapped))
  have run : (depotModule [costMethod, labelMethod]).examine {} "depot"
      = .ok (warningsAbout {} "depot" (depotModule [costMethod, labelMethod]).walk.completed) := rfl
  have rerun : (depotModule [labelMethod, costMethod]).examine {} "depot"
      = .ok (warningsAbout {} "depot" (depotModule [labelMethod, costMethod]).walk.completed) := rfl
  obtain ⟨ws', examined, same⟩ := Tree.examine_perm_of_reordered {} "depot" order _ run
  cases rerun.symm.trans examined
  refine ⟨order, _, _, run, rerun, same, ?_, ?_⟩
  all_goals
    simp only [warningsAbout, Chain.warnings, resolve_default]
    rfl

end CodeSmell
