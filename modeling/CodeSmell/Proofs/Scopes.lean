import CodeSmell.Examination
import CodeSmell.Proofs.Runs
import CodeSmell.Proofs.Walk

/-!
# The scopes of a tree

The scopes that the walk completes are those of the nodes that it reaches and that open one: each
such node has a completed scope, and each completed scope is that of such a node
(`Tree.exists_completed_of_reaches`, `Tree.exists_reaches_of_completed`). The walk of a tree ends
with a fault exactly if something on the way has no text that is needed
(`Tree.faultAmong?_outline_eq_none_iff`).
-/

set_option autoImplicit false

namespace CodeSmell

theorem exists_left_of_forall₂ {α β : Type} {r : α → β → Prop} {xs : List α} {ys : List β}
    (h : List.Forall₂ r xs ys) {y : β} (mem : y ∈ ys) : ∃ x ∈ xs, r x y := by
  induction h with
  | nil => cases mem
  | cons related _ ih =>
    rcases List.mem_cons.1 mem with rfl | mem
    · exact ⟨_, List.mem_cons_self, related⟩
    · obtain ⟨x, found, related⟩ := ih mem
      exact ⟨x, List.mem_cons_of_mem _ found, related⟩

theorem exists_right_of_forall₂ {α β : Type} {r : α → β → Prop} {xs : List α} {ys : List β}
    (h : List.Forall₂ r xs ys) {x : α} (mem : x ∈ xs) : ∃ y ∈ ys, r x y :=
  exists_left_of_forall₂ h.flip mem

namespace Tree

theorem opening_eq_ok {kind : ScopeKind} {t : Tree} {o : Opening} (h : opening kind t = .ok o) :
    o.kind = kind ∧ o.node = t := by
  unfold opening at h
  cases found : label kind t with
  | error f =>
    rw [found] at h
    cases h
  | ok l =>
    rw [found] at h
    cases h
    exact ⟨rfl, rfl⟩

end Tree

/-! ## Faults -/

/-- A move needs no text that is missing. -/
def Move.Sound : Move → Prop
  | .sign t _ => ∃ text, t.render = .ok text
  | .note _ | .visit _ => True

namespace Tree

open Item

/-- What is done at a tree needs no text that is missing. -/
def Sound (t : Tree) : Prop :=
  (∀ m ∈ t.moves, m.Sound) ∧ ∀ kind ∈ t.scopeKind?, ∃ o, t.opening kind = .ok o

theorem faultAmong?_flatMap {α : Type} (xs : List α) (f : α → List Item) :
    faultAmong? (xs.flatMap f) = none ↔ ∀ x ∈ xs, faultAmong? (f x) = none := by
  induction xs with
  | nil => simp [faultAmong?]
  | cons x xs ih => simp [List.flatMap_cons, faultAmong?_append, ih]

theorem faultAmong?_notes (os : List Observation) : faultAmong? (notes os) = none := by
  induction os with
  | nil => rfl
  | cons o os ih => exact ih

theorem faultAmong?_outline_move (m : Move) :
    faultAmong? m.outline = none ↔ m.Sound ∧ ∀ u ∈ m.trees, faultAmong? u.outline = none := by
  cases m with
  | note o => simp [Move.Sound, faultAmong?, fault?]
  | sign t method =>
    simp only [Move.Sound, Move.outline_sign, callNote]
    cases t.render with
    | ok text => simp [faultAmong?, fault?]
    | error f => simp [faultAmong?, fault?]
  | visit t => simp [Move.Sound]

theorem faultAmong?_ownScope (t : Tree) :
    faultAmong? t.ownScope = none ↔ (∀ kind ∈ t.scopeKind?, ∃ o, t.opening kind = .ok o) ∧
      ∀ u ∈ t.within, faultAmong? u.outline = none := by
  unfold ownScope within
  cases t.scopeKind? with
  | none => simp [faultAmong?]
  | some kind =>
    simp only [Option.map_some, Option.toList_some, opened]
    cases h : t.opening kind with
    | ok o =>
      simp [faultAmong?, fault?, scopeOutline, faultAmong?_append, faultAmong?_notes,
        faultAmong?_flatMap, h]
    | error f => simp [faultAmong?, fault?, h]

theorem faultAmong?_outline_step (t : Tree) :
    faultAmong? t.outline = none ↔ t.Sound ∧ ∀ u, u ∈ t.walked → faultAmong? u.outline = none := by
  rw [outline_eq_moves, faultAmong?_append, Option.or_eq_none_iff, faultAmong?_flatMap,
    faultAmong?_ownScope]
  simp only [faultAmong?_outline_move, Sound, walked, List.mem_append, List.mem_flatMap]
  grind

/-- The outline of a tree is free of faults exactly if nothing on the way needs a text that is
missing. -/
theorem faultAmong?_outline_eq_none_iff (t : Tree) :
    faultAmong? t.outline = none ↔ ∀ u, t.Reaches u → u.Sound :=
  iff_forall_of_step below_of_mem_walked faultAmong?_outline_step t

/-! ## Scopes -/

theorem scopesAll_notes (os : List Observation) : scopesAll (notes os) = [] := by
  induction os with
  | nil => rfl
  | cons o os ih => exact ih

theorem scopesAll_flatMap {α : Type} (xs : List α) (f : α → List Item) :
    scopesAll (xs.flatMap f) = xs.flatMap fun x => scopesAll (f x) := by
  simp only [scopesAll_eq_flatMap, List.flatMap_assoc]

theorem scopesAll_append (items more : List Item) :
    scopesAll (items ++ more) = scopesAll items ++ scopesAll more := by
  simp only [scopesAll_eq_flatMap, List.flatMap_append]

theorem scopesAll_outline_move (m : Move) :
    scopesAll m.outline = m.trees.flatMap fun u => scopesAll u.outline := by
  cases m with
  | note o => rfl
  | sign t method =>
    rw [Move.outline_sign, callNote]
    cases t.render <;> rfl
  | visit t => simp

theorem scopesAll_scopeOutline (kind : ScopeKind) (t : Tree) :
    scopesAll (t.scopeOutline kind) = (t.bodyOf kind).flatMap fun u => scopesAll u.outline := by
  rw [scopeOutline, scopesAll_append, scopesAll_notes, scopesAll_flatMap, List.nil_append]

/-- A scope of an outline is that of a node. -/
def Opens (t : Tree) (scope : Opening × List Item) : Prop :=
  ∃ kind, t.scopeKind? = some kind ∧ t.opening kind = .ok scope.1 ∧ scope.2 = t.scopeOutline kind

theorem mem_scopesAll_ownScope {t : Tree} (sound : t.Sound) (scope : Opening × List Item) :
    scope ∈ scopesAll t.ownScope ↔
      (∃ u ∈ t.within, scope ∈ scopesAll u.outline) ∨ t.Opens scope := by
  unfold ownScope within Opens
  cases found : t.scopeKind? with
  | none => simp [scopesAll]
  | some kind =>
    obtain ⟨o, ok⟩ := sound.2 kind found
    have item : opened kind t (t.scopeOutline kind) = .scope o (t.scopeOutline kind) := by
      rw [opened, ok]
    have own : (∃ k, some kind = some k ∧ t.opening k = .ok scope.1 ∧
        scope.2 = t.scopeOutline k) ↔ scope = (o, t.scopeOutline kind) := by
      constructor
      · rintro ⟨k, same, opening, outline⟩
        cases same
        rw [ok, Except.ok.injEq] at opening
        exact Prod.ext opening.symm outline
      · rintro rfl
        exact ⟨kind, rfl, ok, rfl⟩
    rw [own, Option.map_some, Option.toList_some, item, scopesAll, Item.scopes,
      scopesAll, scopesAll_scopeOutline]
    simp

/-- The scopes of the outline of a tree are those of the nodes that the walk reaches. -/
theorem mem_scopesAll_outline {t : Tree} (sound : ∀ u, t.Reaches u → u.Sound)
    (scope : Opening × List Item) :
    scope ∈ scopesAll t.outline ↔ ∃ u, t.Reaches u ∧ u.Opens scope := by
  induction t using walk_induction with
  | step t ih =>
    have here : scope ∈ scopesAll t.outline ↔
        (∃ u ∈ t.walked, scope ∈ scopesAll u.outline) ∨ t.Opens scope := by
      rw [outline_eq_moves, scopesAll_append, scopesAll_flatMap, List.mem_append,
        mem_scopesAll_ownScope (sound t .refl)]
      simp only [scopesAll_outline_move, walked, List.mem_append, List.mem_flatMap]
      grind
    rw [here]
    constructor
    · rintro (⟨u, walked, mem⟩ | opens)
      · obtain ⟨v, reaches, opens⟩ :=
          (ih u walked fun v reaches => sound v (.head walked reaches)).1 mem
        exact ⟨v, .head walked reaches, opens⟩
      · exact ⟨t, .refl, opens⟩
    · rintro ⟨v, reaches, opens⟩
      rcases Relation.ReflTransGen.cases_head reaches with rfl | ⟨u, walked, reaches⟩
      · exact Or.inr opens
      · refine Or.inl ⟨u, walked, ?_⟩
        exact (ih u walked fun v reaches => sound v (.head walked reaches)).2 ⟨v, reaches, opens⟩

/-- What is seen of a tree is what is seen of its moves, followed by what is seen of the scope that
it opens. -/
theorem seenAll_outline {t : Tree} (sound : t.Sound) (inner : List ScopeKind) (kind : ScopeKind) :
    seenAll inner kind t.outline = (t.moves.flatMap fun m => seenAll inner kind m.outline)
      ++ (t.scopeKind?.map fun k => seenAll (k :: inner) kind (t.scopeOutline k)).getD [] := by
  have scope : seenAll inner kind t.ownScope
      = (t.scopeKind?.map fun k => seenAll (k :: inner) kind (t.scopeOutline k)).getD [] := by
    unfold ownScope
    cases found : t.scopeKind? with
    | none => rfl
    | some k =>
      obtain ⟨o, ok⟩ := sound.2 k found
      simp [opened, ok, seenAll, seen, (opening_eq_ok ok).1]
  rw [outline_eq_moves, seenAll_append, seenAll_flatMap, scope]

/-- Only the count of statements is noted before the body of a scope is walked. -/
theorem filterMap_entryNotes {α : Type} {p : Observation → Option α}
    (quiet : ∀ count, p (.statements count) = none) (kind : ScopeKind) (cs : List Tree) :
    (entryNotes kind cs).filterMap p = [] := by
  refine List.filterMap_eq_nil_iff.2 fun o mem => ?_
  unfold entryNotes methodNotes at mem
  grind

/-- What is seen in the scope that a node opens is what is seen in its body. -/
theorem filterMap_seenAll_scopeOutline {α : Type} {p : Observation → Option α}
    (quiet : ∀ count, p (.statements count) = none) (inner : List ScopeKind) (kind k : ScopeKind)
    (t : Tree) :
    (seenAll inner kind (t.scopeOutline k)).filterMap p
      = (t.bodyOf k).flatMap fun u => (seenAll inner kind u.outline).filterMap p := by
  have entry : (seenAll inner kind (notes (entryNotes k t.children))).filterMap p = [] := by
    have none := List.filterMap_eq_nil_iff.1 (filterMap_entryNotes quiet k t.children)
    rw [seenAll_notes]
    exact List.filterMap_eq_nil_iff.2 fun o mem => none o (List.mem_of_mem_filter mem)
  rw [scopeOutline, seenAll_append, List.filterMap_append, entry, seenAll_flatMap,
    List.filterMap_flatMap, List.nil_append]

/-! ## Completed scopes -/

/-- A scope is the completed one of a node: the node has opened it, and what is seen from it has
been noted. -/
structure IsScopeOf (t : Tree) (s : Scope) : Prop where
  node : s.node = some t
  line : s.line = t.line
  kind : t.scopeKind? = some s.kind
  facts : s.facts = Facts.noteAll {} (seenAll [] s.kind (t.scopeOutline s.kind))

theorem fault_walk (t : Tree) : t.walk.fault = faultAmong? t.outline :=
  fault_runAll t.outline [Scope.root]

theorem sound_of_reaches {t u : Tree} (sound : t.walk.fault = none) (reaches : t.Reaches u) :
    u.Sound :=
  (faultAmong?_outline_eq_none_iff t).1 (fault_walk t ▸ sound) u reaches

theorem isScopeOf_of_opens {t : Tree} {scope : Opening × List Item} {chain : Chain}
    (opens : t.Opens scope) (completed : IsCompleted scope chain) :
    ∃ s outer, chain = s :: outer ∧ t.IsScopeOf s := by
  obtain ⟨kind, found, opening, outline⟩ := opens
  obtain ⟨around, outer, rfl⟩ := completed
  obtain ⟨rfl, node⟩ := opening_eq_ok opening
  refine ⟨_, outer, rfl, congrArg some node, congrArg Tree.line node, found, ?_⟩
  rw [outline]
  rfl

/-- Every completed scope is that of a node that the walk reaches. -/
theorem exists_reaches_of_completed {t : Tree} (sound : t.walk.fault = none) {s : Scope}
    {outer : Chain} (h : s :: outer ∈ t.walk.completed) : ∃ u, t.Reaches u ∧ u.IsScopeOf s := by
  have free : faultAmong? t.outline = none := fault_walk t ▸ sound
  obtain ⟨scope, mem, completed⟩ := exists_left_of_forall₂ (completed_runAll t.outline free _) h
  obtain ⟨u, reaches, opens⟩ :=
    (mem_scopesAll_outline (fun u => sound_of_reaches sound) scope).1 mem
  obtain ⟨_, _, same, is⟩ := isScopeOf_of_opens opens completed
  cases same
  exact ⟨u, reaches, is⟩

/-- Every node that the walk reaches and that opens a scope has a completed one. -/
theorem exists_completed_of_reaches {t u : Tree} {kind : ScopeKind} (sound : t.walk.fault = none)
    (reaches : t.Reaches u) (found : u.scopeKind? = some kind) :
    ∃ s outer, s :: outer ∈ t.walk.completed ∧ u.IsScopeOf s := by
  have free : faultAmong? t.outline = none := fault_walk t ▸ sound
  obtain ⟨o, opening⟩ := (sound_of_reaches sound reaches).2 kind found
  have opens : u.Opens (o, u.scopeOutline kind) := ⟨kind, found, opening, rfl⟩
  have mem := (mem_scopesAll_outline (fun u => sound_of_reaches sound) (o, u.scopeOutline kind)).2
    ⟨u, reaches, opens⟩
  obtain ⟨chain, completed, is⟩ :=
    exists_right_of_forall₂ (completed_runAll t.outline free [Scope.root]) mem
  obtain ⟨s, outer, rfl, scope⟩ := isScopeOf_of_opens opens is
  exact ⟨s, outer, completed, scope⟩

/-- What it means that the scopes of a tree can be examined: the tree has the proper shape, the walk
meets no fault, and the scopes are those that it completes. -/
theorem examineScopes_eq_ok {t : Tree} {chains : List Chain} {root : Chain}
    (h : t.examineScopes = .ok (chains, root)) :
    t.malformed? = none ∧ t.walk.fault = none ∧ t.walk.completed = chains := by
  simp only [examineScopes, validate, scopes] at h
  cases shape : t.malformed? with
  | some m =>
    rw [shape] at h
    cases h
  | none =>
    rw [shape] at h
    cases fault : t.walk.fault with
    | some f =>
      rw [fault] at h
      cases h
    | none =>
      rw [fault] at h
      cases h
      exact ⟨rfl, rfl, rfl⟩

end Tree

end CodeSmell
