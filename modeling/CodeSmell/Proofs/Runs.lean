import CodeSmell.Scope.Outline
import Mathlib.Data.List.Forall2

/-!
# What scopes see

An observation is noted for the scope in which it is made and for some of the scopes around it.
`Observation.reaches` says for which: it looks at the kinds of the scopes on the way and at the kind
of the scope in question. Recording an observation notes it exactly for the scopes that it reaches
(`Chain.getElem?_record`), and so a run that no fault ends notes for each scope of the chain what
`Item.seen` lists (`Item.getElem?_chain_runAll`).

The scopes that a run completes are those of the outline, each with what is seen from it
(`Item.completed_runAll`).
-/

set_option autoImplicit false

namespace CodeSmell

/-! ## Recording one observation -/

namespace ScopeKind

/-- Whether the use of an instance variable passes through a scope to those around it. -/
def passesVariables : ScopeKind → Bool
  | .method | .block | .conditional | .yieldCall => true
  | .root | .moduleBody | .classBody | .singletonMethod => false

/-- Whether a scope has no instance variables but those of the methods in it. -/
def isBody : ScopeKind → Bool
  | .root | .moduleBody | .classBody => true
  | .method | .singletonMethod | .block | .conditional | .yieldCall => false

end ScopeKind

/-- Whether an observation is noted for a scope of a given kind when it is made in the first of the
given kinds of scopes nested in it, innermost first. -/
def Observation.reaches (o : Observation) (inner : List ScopeKind) (kind : ScopeKind) : Bool :=
  match o with
  | .call _ | .reference _ _ | .useOfSelf | .dependsOnSelf => inner.all ScopeKind.isTransparent
  | .instanceVariable _ _ _ =>
    inner.all ScopeKind.passesVariables && (!kind.isBody || inner.contains .method)
  | .parameter _ | .local _ | .statements _ => inner.isEmpty

namespace Chain

/-- The kinds of the scopes inside the one at a given place of a chain. -/
def innerKinds (chain : Chain) (i : Nat) : List ScopeKind := (chain.map Scope.kind).take i

theorem getElem?_rollUp (o : Observation) (chain : Chain) (i : Nat) :
    (chain.rollUp o)[i]? = chain[i]?.map fun s =>
      if (chain.innerKinds i).all ScopeKind.isTransparent then s.note o else s := by
  induction chain generalizing i with
  | nil => rfl
  | cons s outer ih =>
    cases i with
    | zero => simp [rollUp, innerKinds]
    | succ i =>
      by_cases transparent : s.kind.isTransparent
      · simpa [rollUp, innerKinds, transparent] using ih i
      · simp [rollUp, innerKinds, transparent]

/-- `inMethod` stands for a method that has been left before the chain begins. -/
theorem getElem?_rollUpVariable (o : Observation) (inMethod : Bool) (chain : Chain) (i : Nat) :
    (chain.rollUpVariable o inMethod)[i]? = chain[i]?.map fun s =>
      if (chain.innerKinds i).all ScopeKind.passesVariables
        && (!s.kind.isBody || inMethod || (chain.innerKinds i).contains .method)
      then s.note o else s := by
  induction chain generalizing i inMethod with
  | nil => rfl
  | cons s outer ih =>
    cases i with
    | zero =>
      cases kind : s.kind <;> cases inMethod <;>
        simp [rollUpVariable, innerKinds, kind, ScopeKind.isBody]
    | succ i =>
      have inner : Chain.innerKinds (s :: outer) (i + 1) = s.kind :: Chain.innerKinds outer i := rfl
      rw [inner, List.getElem?_cons_succ]
      cases kind : s.kind <;>
        simp [rollUpVariable, kind, ScopeKind.passesVariables, ih]

/-- An observation is noted exactly for the scopes that it reaches. -/
theorem getElem?_record (chain : Chain) (o : Observation) (i : Nat) :
    (chain.record o)[i]? = chain[i]?.map fun s =>
      if o.reaches (chain.innerKinds i) s.kind then s.note o else s := by
  cases o
  case call | reference | useOfSelf | dependsOnSelf => exact getElem?_rollUp _ chain i
  case instanceVariable =>
    simpa [record, Observation.reaches] using getElem?_rollUpVariable _ false chain i
  case parameter | «local» | statements =>
    cases chain with
    | nil => rfl
    | cons s outer => cases i <;> simp [record, Observation.reaches, innerKinds]

theorem innerKinds_congr {chain other : Chain} (h : chain.map Scope.kind = other.map Scope.kind)
    (i : Nat) : chain.innerKinds i = other.innerKinds i := by
  rw [innerKinds, innerKinds, h]

/-- Chains whose scopes are the same up to what was noted have the same kinds. -/
theorem map_kind_eq {chain other : Chain} {f : Nat → Scope → Scope}
    (h : ∀ i : Nat, chain[i]? = other[i]?.map (f i)) (keeps : ∀ i s, (f i s).kind = s.kind) :
    chain.map Scope.kind = other.map Scope.kind := by
  refine List.ext_getElem? fun i => ?_
  rw [List.getElem?_map, List.getElem?_map, h, Option.map_map]
  exact congrArg (Option.map · other[i]?) (funext (keeps i))

theorem map_kind_record (chain : Chain) (o : Observation) :
    (chain.record o).map Scope.kind = chain.map Scope.kind := by
  refine map_kind_eq (getElem?_record chain o) fun i s => ?_
  split <;> rfl

end Chain

/-! ## Running an outline -/

/-- Notes several observations. -/
def Facts.noteAll (f : Facts) (os : List Observation) : Facts := os.foldl note f

/-- Notes several observations for a scope. -/
def Scope.noteAll (s : Scope) (os : List Observation) : Scope :=
  { s with facts := s.facts.noteAll os }

theorem Scope.noteAll_append (s : Scope) (os more : List Observation) :
    s.noteAll (os ++ more) = (s.noteAll os).noteAll more := by
  simp only [noteAll, Facts.noteAll, List.foldl_append]

namespace Item

/-- Induction on outlines. -/
@[elab_as_elim]
theorem outline_induction {motive : List Item → Prop} (nil : motive [])
    (note : ∀ o rest, motive rest → motive (.note o :: rest))
    (scope : ∀ o body rest, motive body → motive rest → motive (.scope o body :: rest))
    (fault : ∀ f rest, motive rest → motive (.fault f :: rest)) : ∀ items, motive items
  | [] => nil
  | .note o :: rest => note o rest (outline_induction nil note scope fault rest)
  | .scope o body :: rest =>
    scope o body rest (outline_induction nil note scope fault body)
      (outline_induction nil note scope fault rest)
  | .fault f :: rest => fault f rest (outline_induction nil note scope fault rest)

mutual

/-- The first fault of a part of an outline. -/
def fault? : Item → Option RenderFault
  | .note _ => none
  | .scope _ body => faultAmong? body
  | .fault f => some f

/-- The first fault of an outline. -/
def faultAmong? : List Item → Option RenderFault
  | [] => none
  | item :: rest => (fault? item).or (faultAmong? rest)

end

mutual

/-- What a run notes for a scope of a given kind when a part of an outline stands inside given kinds
of scopes nested in it, innermost first. -/
def seen (inner : List ScopeKind) (kind : ScopeKind) : Item → List Observation
  | .note o => if o.reaches inner kind then [o] else []
  | .scope o body => seenAll (o.kind :: inner) kind body
  | .fault _ => []

/-- What a run notes for a scope when an outline stands inside scopes nested in it. -/
def seenAll (inner : List ScopeKind) (kind : ScopeKind) : List Item → List Observation
  | [] => []
  | item :: rest => seen inner kind item ++ seenAll inner kind rest

end

mutual

/-- The scopes of a part of an outline with their own outlines, in order of completion. -/
def scopes : Item → List (Opening × List Item)
  | .note _ => []
  | .scope o body => scopesAll body ++ [(o, body)]
  | .fault _ => []

/-- The scopes of an outline with their own outlines, in order of completion. -/
def scopesAll : List Item → List (Opening × List Item)
  | [] => []
  | item :: rest => scopes item ++ scopesAll rest

end

theorem runAll_note (o : Observation) (rest : List Item) (chain : Chain) :
    runAll (.note o :: rest) chain = runAll rest (chain.record o) := by
  simp [runAll, run, Progress.andThen]

theorem runAll_fault (f : RenderFault) (rest : List Item) (chain : Chain) :
    runAll (.fault f :: rest) chain = { chain := chain, fault := some f } := by
  simp [runAll, run, Progress.andThen]

/-- A run is ended by the first fault of the outline, if there is one. -/
theorem fault_runAll (items : List Item) (chain : Chain) :
    (runAll items chain).fault = faultAmong? items := by
  induction items using outline_induction generalizing chain with
  | nil => rfl
  | note o rest ih => rw [runAll_note, ih, faultAmong?, fault?, Option.none_or]
  | scope o body rest ihBody ihRest =>
    rw [runAll, run, Progress.andThen, faultAmong?, fault?, ← ihBody (o.scopeIn chain :: chain)]
    cases h : (runAll body (o.scopeIn chain :: chain)).fault with
    | none => simp [Progress.leave, h, ihRest]
    | some f => simp [Progress.leave, h]
  | fault f rest _ => rw [runAll_fault, faultAmong?, fault?, Option.some_or]

/-- How a run goes through a scope without a fault. -/
theorem runAll_scope (o : Opening) {body : List Item} (sound : faultAmong? body = none)
    (rest : List Item) (chain : Chain) :
    let inner := runAll body (o.scopeIn chain :: chain)
    let outer := runAll rest inner.chain.tail
    runAll (.scope o body :: rest) chain
      = { outer with completed := inner.completed ++ inner.chain :: outer.completed } := by
  have fault : (runAll body (o.scopeIn chain :: chain)).fault = none := by
    rw [fault_runAll, sound]
  simp [runAll, run, Progress.leave, Progress.andThen, fault]

/-- A run without a fault notes for each scope of the chain what is seen from it. -/
theorem getElem?_chain_runAll (items : List Item) (sound : faultAmong? items = none)
    (chain : Chain) (i : Nat) :
    (runAll items chain).chain[i]?
      = chain[i]?.map fun s => s.noteAll (seenAll (chain.innerKinds i) s.kind items) := by
  induction items using outline_induction generalizing chain i with
  | nil => simp [runAll, seenAll, Scope.noteAll, Facts.noteAll]
  | note o rest ih =>
    rw [faultAmong?, fault?, Option.none_or] at sound
    have kinds : (chain.record o).innerKinds i = chain.innerKinds i :=
      Chain.innerKinds_congr (chain.map_kind_record o) i
    rw [runAll_note, ih sound, kinds, Chain.getElem?_record, Option.map_map]
    refine congrArg (Option.map · chain[i]?) (funext fun s => ?_)
    by_cases reached : o.reaches (chain.innerKinds i) s.kind
    · simp [seenAll, seen, reached, Scope.noteAll, Facts.noteAll, Scope.note]
    · simp [seenAll, seen, reached]
  | scope o body rest ihBody ihRest =>
    rw [faultAmong?, fault?, Option.or_eq_none_iff] at sound
    have around (i : Nat) : (runAll body (o.scopeIn chain :: chain)).chain.tail[i]?
        = chain[i]?.map fun s =>
          s.noteAll (seenAll (o.kind :: chain.innerKinds i) s.kind body) := by
      rw [List.getElem?_tail, ihBody sound.1, List.getElem?_cons_succ]
      rfl
    have kinds : (runAll body (o.scopeIn chain :: chain)).chain.tail.map Scope.kind
        = chain.map Scope.kind := by
      exact Chain.map_kind_eq around fun i s => rfl
    rw [runAll_scope o sound.1, ihRest sound.2, Chain.innerKinds_congr kinds, around,
      Option.map_map]
    refine congrArg (Option.map · chain[i]?) (funext fun s => ?_)
    rw [seenAll, seen, Scope.noteAll_append]
    rfl
  | fault f rest _ => simp [faultAmong?, fault?] at sound

/-- A chain is that of a scope of an outline when it is completed: the scope has been opened, and
what is seen from it has been noted. -/
def IsCompleted (scope : Opening × List Item) (chain : Chain) : Prop :=
  ∃ around outer : Chain,
    chain = (scope.1.scopeIn around).noteAll (seenAll [] scope.1.kind scope.2) :: outer

/-- A run without a fault completes the scopes of the outline one after the other. -/
theorem completed_runAll (items : List Item) (sound : faultAmong? items = none) (chain : Chain) :
    List.Forall₂ IsCompleted (scopesAll items) (runAll items chain).completed := by
  induction items using outline_induction generalizing chain with
  | nil => exact .nil
  | note o rest ih =>
    rw [faultAmong?, fault?, Option.none_or] at sound
    rw [runAll_note]
    exact ih sound (chain.record o)
  | scope o body rest ihBody ihRest =>
    rw [faultAmong?, fault?, Option.or_eq_none_iff] at sound
    have head := getElem?_chain_runAll body sound.1 (o.scopeIn chain :: chain) 0
    obtain ⟨outer, completed⟩ := List.head?_eq_some_iff.1 ((List.head?_eq_getElem? ..).trans head)
    rw [runAll_scope o sound.1, scopesAll, scopes, List.append_assoc]
    refine List.rel_append (ihBody sound.1 _) (.cons ⟨chain, outer, completed⟩ ?_)
    exact ihRest sound.2 _
  | fault f rest _ => simp [faultAmong?, fault?] at sound

/-! ## What runs keep -/

theorem forall_mem_record {p : Scope → Prop} (noted : ∀ s o, p s → p (Scope.note s o))
    {chain : Chain} (h : ∀ s ∈ chain, p s) (o : Observation) : ∀ s ∈ chain.record o, p s := by
  intro s mem
  obtain ⟨i, found⟩ := List.mem_iff_getElem?.1 mem
  rw [Chain.getElem?_record, Option.map_eq_some_iff] at found
  obtain ⟨before, place, rfl⟩ := found
  have here := h before (List.mem_of_getElem? place)
  split
  · exact noted before o here
  · exact here

/-- What holds of every scope when it is opened and is kept by each note holds of all scopes that a
run comes to, also when a fault ends it. -/
theorem forall_mem_runAll {p : Scope → Prop} (opened : ∀ o chain, p (Opening.scopeIn o chain))
    (noted : ∀ s o, p s → p (Scope.note s o)) (items : List Item) {chain : Chain}
    (h : ∀ s ∈ chain, p s) :
    (∀ s ∈ (runAll items chain).chain, p s) ∧
      ∀ c ∈ (runAll items chain).completed, ∀ s ∈ c, p s := by
  induction items using outline_induction generalizing chain with
  | nil => exact ⟨h, fun c mem => nomatch mem⟩
  | note o rest ih =>
    rw [runAll_note]
    exact ih (forall_mem_record noted h o)
  | scope o body rest ihBody ihRest =>
    have inside : ∀ s ∈ o.scopeIn chain :: chain, p s := List.forall_mem_cons.2 ⟨opened o chain, h⟩
    obtain ⟨within, before⟩ := ihBody inside
    have around : ∀ s ∈ (runAll body (o.scopeIn chain :: chain)).chain.tail, p s :=
      fun s mem => within s (List.mem_of_mem_tail mem)
    obtain ⟨after, later⟩ := ihRest around
    rw [runAll, run, Progress.andThen, Progress.leave]
    cases fault : (runAll body (o.scopeIn chain :: chain)).fault with
    | some f => exact ⟨around, before⟩
    | none =>
      refine ⟨after, fun c mem => ?_⟩
      simp only [List.mem_append, List.mem_singleton] at mem
      rcases mem with (mem | rfl) | mem
      · exact before c mem
      · exact within
      · exact later c mem
  | fault f rest _ =>
    rw [runAll_fault]
    exact ⟨h, fun c mem => nomatch mem⟩

/-! ## Outlines one after the other -/

theorem faultAmong?_append (items more : List Item) :
    faultAmong? (items ++ more) = (faultAmong? items).or (faultAmong? more) := by
  induction items with
  | nil => rfl
  | cons item rest ih => rw [List.cons_append, faultAmong?, faultAmong?, ih, Option.or_assoc]

theorem seenAll_eq_flatMap (inner : List ScopeKind) (kind : ScopeKind) (items : List Item) :
    seenAll inner kind items = items.flatMap (seen inner kind) := by
  induction items with
  | nil => rfl
  | cons item rest ih => rw [seenAll, ih, List.flatMap_cons]

theorem seenAll_append (inner : List ScopeKind) (kind : ScopeKind) (items more : List Item) :
    seenAll inner kind (items ++ more) = seenAll inner kind items ++ seenAll inner kind more := by
  simp only [seenAll_eq_flatMap, List.flatMap_append]

theorem seenAll_flatMap {α : Type} (inner : List ScopeKind) (kind : ScopeKind) (xs : List α)
    (f : α → List Item) :
    seenAll inner kind (xs.flatMap f) = xs.flatMap fun x => seenAll inner kind (f x) := by
  simp only [seenAll_eq_flatMap, List.flatMap_assoc]

theorem seenAll_notes (inner : List ScopeKind) (kind : ScopeKind) (os : List Observation) :
    seenAll inner kind (Tree.notes os) = os.filter fun o => o.reaches inner kind := by
  induction os with
  | nil => rfl
  | cons o os ih =>
    rw [Tree.notes, List.map_cons, seenAll, ← Tree.notes, ih, seen, List.filter_cons]
    split <;> rfl

/-- Observations of a sort that does not come through the given scopes are not seen. -/
theorem filterMap_seenAll_eq_nil {α : Type} (p : Observation → Option α) {inner : List ScopeKind}
    {kind : ScopeKind}
    (blocked : ∀ more o, (p o).isSome → o.reaches (more ++ inner) kind = false)
    (items : List Item) : (seenAll inner kind items).filterMap p = [] := by
  induction items using outline_induction generalizing inner with
  | nil => rfl
  | note o rest ih =>
    have here : (seen inner kind (.note o)).filterMap p = [] := by
      have := blocked [] o
      cases found : p o <;> grind [seen]
    rw [seenAll, List.filterMap_append, here]
    exact ih blocked
  | scope o body rest ihBody ihRest =>
    have deeper : ∀ more o', (p o').isSome → o'.reaches (more ++ o.kind :: inner) kind = false := by
      intro more o' some
      rw [List.append_cons]
      exact blocked (more ++ [o.kind]) o' some
    rw [seenAll, List.filterMap_append, ihRest blocked, List.append_nil]
    exact ihBody deeper
  | fault f rest ih => exact ih blocked

theorem scopesAll_eq_flatMap (items : List Item) : scopesAll items = items.flatMap scopes := by
  induction items with
  | nil => rfl
  | cons item rest ih => rw [scopesAll, ih, List.flatMap_cons]

end Item

end CodeSmell
