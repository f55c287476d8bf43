import CodeSmell.Proofs.Completion
import Mathlib.Data.List.Nodup

/-!
# Places of scopes

Trees that look alike can stand in several places, so scopes are told apart by their places: the
slots that lead to a node from the root of the tree. `Tree.entersSlot` lists the slots that the walk
leaves out, and `Tree.OpensAt` tells the places at which it opens a scope. A node in front of the
equals sign of a multiple assignment is special: it stands for the targets, and the walk goes
through all its slots without opening a scope for it.

`Tree.nests` is the forest of the scopes of a tree. A scope is entered before the scopes inside it
(`Nest.enteredAll`) and completed after them (`Nest.completedAll`). What is proved here concerns the
forest alone: which places it has (`Tree.mem_completedAll_nests`), that it has none twice
(`Tree.nodup_completedAll_nests`), which scopes lie around each (`Tree.mem_around_iff`), that a
scope is completed before those around it (`Nest.pair_sublist_of_mem_around`), and that scopes apart
from each other are completed in the order in which they are entered
(`Nest.pair_sublist_of_entered`).
-/

set_option autoImplicit false

namespace CodeSmell

/-- The place of a tree inside another: the slots that lead to it, from the outside in. -/
abbrev Place := List Nat

namespace Tree

/-! ## Slots -/

theorem eq_node_of_hasTag {t : Tree} {k : Keyword} (h : t.hasTag k = true) :
    ∃ line cs, t = .node (.known k) line cs := by
  cases t with
  | atom a => cases h
  | node tag line cs =>
    cases of_decide_eq_true h
    exact ⟨line, cs, rfl⟩

/-- The tree at a place. -/
def part? : Tree → Place → Option Tree
  | t, [] => some t
  | t, i :: place => t.children[i]?.bind fun c => c.part? place

theorem part?_append (t : Tree) (place more : Place) :
    t.part? (place ++ more) = (t.part? place).bind fun u => u.part? more := by
  induction place generalizing t with
  | nil => rfl
  | cons i place ih =>
    rw [List.cons_append, part?, part?]
    cases t.children[i]? with
    | none => rfl
    | some c => exact ih c

/-- Whether the walk of a node goes into a slot of it. The names of modules, classes and methods,
superclasses, receivers of singleton methods and the bodies of structs are left out, and so is all
that stands below a plain name, a variable, `self` and a `super` without arguments. The variable
that a compound assignment assigns to is left out, and of an assignment under a condition all but
the assignment to a variable that is its second part. -/
def entersSlot (t : Tree) (i : Nat) : Bool :=
  match t with
  | .atom _ => false
  | .node tag _ cs =>
    match tag with
    | .known .moduleDef | .known .defn => 1 ≤ i
    | .known .classDef => 2 ≤ i && !hasStructTemplate cs
    | .known .defs => 2 ≤ i
    | .known .vcall | .known .ivar | .known .self | .known .zsuper => false
    | .known .opAsgn => 1 ≤ i || !cs[0]?.any isVariable
    | .known .opAsgnOr | .known .opAsgnAnd => i = 1 || !cs[1]?.any isAssignment
    | _ => true

/-- Whether the walk goes into a slot of a node, which may stand for targets. -/
def goesInto (targets : Bool) (t : Tree) (i : Nat) : Bool := targets || t.entersSlot i

/-- Whether what stands in a slot of a node stands for targets. -/
def holdsTargets (targets : Bool) (t : Tree) (i : Nat) : Bool :=
  !targets && t.hasTag .masgn && i == 0

/-- Whether a scope is opened for a node, which may stand for targets. -/
def opens (targets : Bool) (t : Tree) : Bool := !targets && t.scopeKind?.isSome

/-- Whether a slot of a node that opens a scope belongs to the scope around it: the call of a block
does. -/
def isCallSlot (t : Tree) (i : Nat) : Bool := t.hasTag .iter && i == 0

/-- Whether the walk of a tree opens a scope at a place. -/
def opensAt : Bool → Tree → Place → Bool
  | targets, t, [] => opens targets t
  | targets, t, i :: place =>
    goesInto targets t i && t.children[i]?.any fun c => opensAt (holdsTargets targets t i) c place

/-- The places of the scopes around a place, innermost first, in a tree at the place `here`. -/
def around : Bool → Place → Tree → Place → List Place
  | _, _, _, [] => []
  | targets, here, t, i :: place =>
    (match t.children[i]? with
      | some c => around (holdsTargets targets t i) (here ++ [i]) c place
      | none => [])
      ++ if opens targets t && !isCallSlot t i then [here] else []

end Tree

/-! ## Forests of scopes -/

/-- The scope at a place, with the scopes in it. -/
inductive Nest where
  | mk (place : Place) (inner : List Nest)

/-- The place of a scope and those of the scopes around it, innermost first. -/
structure Site where
  place : Place
  around : List Place

namespace Nest

mutual

/-- The scopes of a nest inside given ones, in order of completion. -/
def completed (outer : List Place) : Nest → List Site
  | .mk place inner => completedAll (place :: outer) inner ++ [⟨place, outer⟩]

/-- The scopes of a forest inside given ones, in order of completion. -/
def completedAll (outer : List Place) : List Nest → List Site
  | [] => []
  | n :: ns => completed outer n ++ completedAll outer ns

end

mutual

/-- The scopes of a nest inside given ones, in the order in which they are entered. -/
def entered (outer : List Place) : Nest → List Site
  | .mk place inner => ⟨place, outer⟩ :: enteredAll (place :: outer) inner

/-- The scopes of a forest inside given ones, in the order in which they are entered. -/
def enteredAll (outer : List Place) : List Nest → List Site
  | [] => []
  | n :: ns => entered outer n ++ enteredAll outer ns

end

/-- Induction on forests. -/
@[elab_as_elim]
theorem forest_induction {motive : List Nest → Prop} (nil : motive [])
    (cons : ∀ place inner rest, motive inner → motive rest → motive (.mk place inner :: rest)) :
    ∀ ns, motive ns
  | [] => nil
  | .mk place inner :: rest =>
    cons place inner rest (forest_induction nil cons inner) (forest_induction nil cons rest)

theorem completedAll_append (outer : List Place) (ns more : List Nest) :
    completedAll outer (ns ++ more) = completedAll outer ns ++ completedAll outer more := by
  induction ns with
  | nil => rfl
  | cons n ns ih => rw [List.cons_append, completedAll, completedAll, ih, List.append_assoc]

theorem completedAll_singleton (outer : List Place) (place : Place) (inner : List Nest) :
    completedAll outer [.mk place inner]
      = completedAll (place :: outer) inner ++ [⟨place, outer⟩] := by
  rw [completedAll, completed, completedAll, List.append_nil]

/-- The scopes that are completed are those that are entered. -/
theorem completedAll_perm (ns : List Nest) (outer : List Place) :
    (completedAll outer ns).Perm (enteredAll outer ns) := by
  induction ns using forest_induction generalizing outer with
  | nil => exact .nil
  | cons place inner rest ihInner ihRest =>
    rw [completedAll, completed, enteredAll, entered]
    apply List.Perm.append
    · exact (List.perm_append_singleton _ _).trans ((ihInner (place :: outer)).cons _)
    · exact ihRest outer

theorem suffix_around (ns : List Nest) (outer : List Place) {site : Site}
    (mem : site ∈ completedAll outer ns) : outer <:+ site.around := by
  induction ns using forest_induction generalizing outer with
  | nil => cases mem
  | cons place inner rest ihInner ihRest =>
    rw [completedAll, completed] at mem
    rcases List.mem_append.1 mem with first | later
    · rcases List.mem_append.1 first with inside | own
      · exact (List.suffix_cons place outer).trans (ihInner _ inside)
      · cases List.mem_singleton.1 own
        exact List.suffix_refl outer
    · exact ihRest outer later

/-! ### Orders -/

theorem pair_sublist_append {α : Type} {x y : α} {xs ys : List α} :
    [x, y].Sublist (xs ++ ys) ↔ [x, y].Sublist xs ∨ x ∈ xs ∧ y ∈ ys ∨ [x, y].Sublist ys := by
  constructor
  · intro h
    obtain ⟨before, after, split, left, right⟩ := List.sublist_append_iff.1 h
    match before with
    | [] =>
      rw [List.nil_append] at split
      exact .inr (.inr (split ▸ right))
    | [_] =>
      cases split
      exact .inr (.inl ⟨List.singleton_sublist.1 left, List.singleton_sublist.1 right⟩)
    | [_, _] =>
      cases split
      exact .inl left
    | _ :: _ :: _ :: _ => cases split
  · rintro (left | ⟨first, second⟩ | right)
    · exact left.trans (List.sublist_append_left xs ys)
    · exact (List.singleton_sublist.2 first).append (List.singleton_sublist.2 second)
    · exact right.trans (List.sublist_append_right xs ys)

/-- A scope is completed before the scopes around it. -/
theorem pair_sublist_of_mem_around (ns : List Nest) (outer : List Place) {site : Site}
    (mem : site ∈ completedAll outer ns) {place : Place} (around : place ∈ site.around) :
    place ∈ outer ∨ [site.place, place].Sublist ((completedAll outer ns).map Site.place) := by
  induction ns using forest_induction generalizing outer with
  | nil => cases mem
  | cons here inner rest ihInner ihRest =>
    rw [completedAll, completed] at mem ⊢
    rw [List.map_append, List.map_append, pair_sublist_append, pair_sublist_append]
    rcases List.mem_append.1 mem with mem | mem
    · rcases List.mem_append.1 mem with inside | own
      · rcases ihInner (here :: outer) inside with found | sublist
        · rcases List.mem_cons.1 found with rfl | found
          · -- the scope around it is the one that is completed last
            refine .inr (.inl (.inr (.inl ⟨List.mem_map_of_mem inside, ?_⟩)))
            exact List.mem_singleton_self _
          · exact .inl found
        · exact .inr (.inl (.inl sublist))
      · cases List.mem_singleton.1 own
        exact .inl around
    · rcases ihRest outer mem with found | sublist
      · exact .inl found
      · exact .inr (.inr (.inr sublist))

/-- Of two scopes the one that is entered first is completed first, unless the other lies in it. -/
theorem pair_sublist_of_entered (ns : List Nest) (outer : List Place) {s s' : Site}
    (order : [s, s'].Sublist (enteredAll outer ns)) (apart : s.place ∉ s'.around) :
    [s, s'].Sublist (completedAll outer ns) := by
  induction ns using forest_induction generalizing outer with
  | nil => cases order
  | cons here inner rest ihInner ihRest =>
    have first := completedAll_perm [.mk here inner] outer
    rw [completedAll_singleton] at first
    rw [completedAll, completed, pair_sublist_append]
    rw [enteredAll, entered, pair_sublist_append] at order
    rcases order with both | ⟨left, right⟩ | both
    · refine .inl ?_
      cases both with
      | cons _ both =>
        exact (ihInner (here :: outer) both).trans (List.sublist_append_left _ _)
      | cons_cons _ later =>
        -- all that is entered in the scope of the first site lies in it
        have inside := (completedAll_perm inner (here :: outer)).mem_iff.2
          (List.singleton_sublist.1 later)
        exact absurd ((suffix_around inner _ inside).subset List.mem_cons_self) apart
    · refine .inr (.inl ⟨?_, (completedAll_perm rest outer).mem_iff.2 right⟩)
      refine first.mem_iff.2 ?_
      rw [enteredAll, entered, enteredAll, List.append_nil]
      exact left
    · exact .inr (.inr (ihRest outer both))

end Nest

/-! ## The scopes of a tree -/

namespace Tree

open Nest

mutual

/-- The scopes that the walk opens in a tree at a place. The call of a block comes before it. -/
def nests (targets : Bool) (here : Place) : Tree → List Nest
  | .atom _ => []
  | .node tag line cs =>
    let t := node tag line cs
    let among p :=
      nestsAmong (fun i => goesInto targets t i && p i) (holdsTargets targets t) here 0 cs
    if opens targets t then among (isCallSlot t) ++ [.mk here (among fun i => !isCallSlot t i)]
    else among fun _ => true

/-- The scopes that the walk opens in trees in the slots of a node at a place, from a slot on. -/
def nestsAmong (enters targetsAt : Nat → Bool) (here : Place) (i : Nat) : List Tree → List Nest
  | [] => []
  | c :: cs =>
    (if enters i then nests (targetsAt i) (here ++ [i]) c else [])
      ++ nestsAmong enters targetsAt here (i + 1) cs

end

theorem nests_eq (targets : Bool) (here : Place) (t : Tree) :
    nests targets here t =
      let among p :=
        nestsAmong (fun i => goesInto targets t i && p i) (holdsTargets targets t) here 0 t.children
      if opens targets t then among (isCallSlot t) ++ [.mk here (among fun i => !isCallSlot t i)]
      else among fun _ => true := by
  cases t with
  | atom a =>
    have closed : opens targets (.atom a) = false := Bool.and_false _
    rw [closed]
    rfl
  | node tag line cs => rw [nests]; rfl

theorem mem_completedAll_nestsAmong {enters targetsAt : Nat → Bool} {here : Place}
    {outer : List Place} {site : Site} (i : Nat) (cs : List Tree) :
    site ∈ completedAll outer (nestsAmong enters targetsAt here i cs) ↔
      ∃ j c, cs[j]? = some c ∧ enters (i + j) = true ∧
        site ∈ completedAll outer (nests (targetsAt (i + j)) (here ++ [i + j]) c) := by
  induction cs generalizing i with
  | nil => simp [nestsAmong, completedAll]
  | cons c cs ih =>
    rw [nestsAmong, completedAll_append, List.mem_append, ih]
    constructor
    · rintro (mem | ⟨j, c', found, enters, mem⟩)
      · split at mem
        next enters => exact ⟨0, c, rfl, enters, mem⟩
        next => cases mem
      · rw [Nat.add_right_comm] at enters mem
        exact ⟨j + 1, c', found, enters, mem⟩
    · rintro ⟨j, c', found, enters, mem⟩
      cases j with
      | zero =>
        cases found
        rw [Nat.add_zero] at enters mem
        rw [if_pos enters]
        exact .inl mem
      | succ j =>
        rw [← Nat.add_assoc, Nat.add_right_comm] at enters mem
        exact .inr ⟨j, c', found, enters, mem⟩

theorem opensAt_cons {targets : Bool} {t : Tree} {i : Nat} {place : Place} :
    opensAt targets t (i :: place) = true ↔ goesInto targets t i = true ∧
      ∃ c, t.children[i]? = some c ∧ opensAt (holdsTargets targets t i) c place = true := by
  rw [opensAt, Bool.and_eq_true, Option.any_eq_true]

theorem around_cons {targets : Bool} {here : Place} {t c : Tree} {i : Nat} {place : Place}
    (found : t.children[i]? = some c) :
    around targets here t (i :: place)
      = around (holdsTargets targets t i) (here ++ [i]) c place
        ++ if opens targets t && !isCallSlot t i then [here] else [] := by
  rw [around, found]

/-- The scopes below the slots of a kind, if it is known for each child which scopes it has. What is
around these scopes depends on whether the slots belong to the scope of the node. -/
theorem mem_completedAll_slots {t : Tree} {targets : Bool} {here : Place}
    {outer inside : List Place} {site : Site} {p : Nat → Bool}
    (each : ∀ c ∈ t.children, ∀ (targets : Bool) (here : Place) (outer : List Place),
      site ∈ completedAll outer (nests targets here c) ↔ ∃ place, opensAt targets c place = true ∧
        site = ⟨here ++ place, around targets here c place ++ outer⟩)
    (belongs : ∀ i, p i = true →
      (if opens targets t && !isCallSlot t i then [here] else []) ++ outer = inside) :
    site ∈ completedAll inside (nestsAmong (fun i => goesInto targets t i && p i)
        (holdsTargets targets t) here 0 t.children) ↔
      ∃ i place, p i = true ∧ opensAt targets t (i :: place) = true ∧
        site = ⟨here ++ i :: place, around targets here t (i :: place) ++ outer⟩ := by
  rw [mem_completedAll_nestsAmong]
  constructor
  · rintro ⟨i, c, found, enters, mem⟩
    rw [Nat.zero_add] at enters mem
    rw [Bool.and_eq_true] at enters
    obtain ⟨place, opens, rfl⟩ := (each c (List.mem_of_getElem? found) _ _ _).1 mem
    refine ⟨i, place, enters.2, opensAt_cons.2 ⟨enters.1, c, found, opens⟩, ?_⟩
    rw [around_cons found, List.append_assoc, List.append_assoc, belongs i enters.2]
    rfl
  · rintro ⟨i, place, slot, opens, rfl⟩
    obtain ⟨enters, c, found, opens⟩ := opensAt_cons.1 opens
    refine ⟨i, c, found, by rw [Nat.zero_add, enters, slot]; rfl, ?_⟩
    rw [Nat.zero_add, each c (List.mem_of_getElem? found)]
    refine ⟨place, opens, ?_⟩
    rw [around_cons found, List.append_assoc, List.append_assoc, belongs i slot]
    rfl

/-- The scopes of a tree are those at the places where it opens one, each inside the scopes
around it. -/
theorem mem_completedAll_nests (t : Tree) (targets : Bool) (here : Place) (outer : List Place)
    (site : Site) :
    site ∈ completedAll outer (nests targets here t) ↔
      ∃ place, opensAt targets t place = true ∧
        site = ⟨here ++ place, around targets here t place ++ outer⟩ := by
  induction t using below_induction generalizing targets here outer with
  | step t ih =>
    have slots {p : Nat → Bool} {inside : List Place} :=
      @mem_completedAll_slots t targets here outer inside site p fun c mem => ih c (.single mem)
    rw [nests_eq]
    cases own : opens targets t with
    | false =>
      rw [if_neg Bool.false_ne_true, slots fun i _ => by rw [own]; rfl]
      constructor
      · rintro ⟨i, place, -, opens, rfl⟩
        exact ⟨i :: place, opens, rfl⟩
      · rintro ⟨place, opens, rfl⟩
        cases place with
        | nil =>
          rw [opensAt, own] at opens
          cases opens
        | cons i place => exact ⟨i, place, rfl, opens, rfl⟩
    | true =>
      -- the slot of the call is outside of the scope, the others are inside
      rw [if_pos rfl, completedAll_append, completedAll_singleton, List.mem_append, List.mem_append,
        slots fun i call => by rw [own, call]; rfl,
        slots fun i body => by rw [own, body]; rfl, List.mem_singleton]
      constructor
      · rintro (⟨i, place, -, opens, rfl⟩ | ⟨i, place, -, opens, rfl⟩ | rfl)
        · exact ⟨i :: place, opens, rfl⟩
        · exact ⟨i :: place, opens, rfl⟩
        · refine ⟨[], own, ?_⟩
          rw [List.append_nil, around, List.nil_append]
      · rintro ⟨place, opens, rfl⟩
        cases place with
        | nil =>
          rw [List.append_nil, around, List.nil_append]
          exact .inr (.inr rfl)
        | cons i place =>
          cases call : isCallSlot t i with
          | true => exact .inl ⟨i, place, call, opens, rfl⟩
          | false => exact .inr (.inl ⟨i, place, by rw [call]; rfl, opens, rfl⟩)

theorem exists_slot_of_mem {enters targetsAt : Nat → Bool} {here : Place} {outer : List Place}
    {i : Nat} {cs : List Tree} {place : Place}
    (mem : place ∈ (completedAll outer (nestsAmong enters targetsAt here i cs)).map Site.place) :
    ∃ j rest, i ≤ j ∧ enters j = true ∧ place = here ++ j :: rest := by
  obtain ⟨site, listed, rfl⟩ := List.mem_map.1 mem
  obtain ⟨j, c, -, enters, inside⟩ := (mem_completedAll_nestsAmong i cs).1 listed
  obtain ⟨rest, -, rfl⟩ := (mem_completedAll_nests c _ _ _ site).1 inside
  exact ⟨i + j, rest, Nat.le_add_right i j, enters, by rw [List.append_assoc]; rfl⟩

theorem nodup_completedAll_nestsAmong {enters targetsAt : Nat → Bool} {here : Place} {i : Nat}
    {cs : List Tree} {outer : List Place}
    (each : ∀ c ∈ cs, ∀ targets here,
      ((completedAll outer (nests targets here c)).map Site.place).Nodup) :
    ((completedAll outer (nestsAmong enters targetsAt here i cs)).map Site.place).Nodup := by
  induction cs generalizing i with
  | nil => exact List.nodup_nil
  | cons c cs ih =>
    rw [List.forall_mem_cons] at each
    rw [nestsAmong, completedAll_append, List.map_append, List.nodup_append]
    refine ⟨?_, ih each.2, ?_⟩
    · split
      · exact each.1 _ _
      · exact List.nodup_nil
    · -- what comes first lies in slot `i`, what comes later in later slots
      intro place first place' later same
      obtain ⟨j, rest, less, -, rfl⟩ := exists_slot_of_mem later
      split at first
      · obtain ⟨site, mem, rfl⟩ := List.mem_map.1 first
        obtain ⟨more, -, rfl⟩ := (mem_completedAll_nests c _ _ _ site).1 mem
        rw [List.append_assoc, List.append_cancel_left_eq] at same
        injection same with same
        omega
      · cases first

/-- No place has two scopes. -/
theorem nodup_completedAll_nests (t : Tree) (targets : Bool) (here : Place) (outer : List Place) :
    ((completedAll outer (nests targets here t)).map Site.place).Nodup := by
  induction t using below_induction generalizing targets here outer with
  | step t ih =>
    have slots (p : Nat → Bool) (outer : List Place) :
        ((completedAll outer (nestsAmong (fun i => goesInto targets t i && p i)
          (holdsTargets targets t) here 0 t.children)).map Site.place).Nodup :=
      nodup_completedAll_nestsAmong fun c mem targets here => ih c (.single mem) targets here outer
    have below {enters : Nat → Bool} {outer : List Place} : here ∉ (completedAll outer
        (nestsAmong enters (holdsTargets targets t) here 0 t.children)).map Site.place := by
      intro mem
      obtain ⟨j, rest, -, -, same⟩ := exists_slot_of_mem mem
      simp at same
    rw [nests_eq]
    split
    · rw [completedAll_append, completedAll_singleton, List.map_append, List.map_append]
      rw [List.nodup_append]
      refine ⟨slots _ outer, ?_, ?_⟩
      · exact List.nodup_append.2 ⟨slots _ _, List.nodup_singleton _, fun place mem place' own =>
          fun same => below ((List.mem_singleton.1 own) ▸ same ▸ mem)⟩
      · intro place call place' other same
        subst same
        obtain ⟨j, rest, -, enters, rfl⟩ := exists_slot_of_mem call
        rcases List.mem_append.1 other with body | own
        · obtain ⟨k, more, -, enters', same⟩ := exists_slot_of_mem body
          rw [List.append_cancel_left_eq] at same
          injection same with same
          subst same
          simp_all
        · rw [List.mem_singleton.1 own] at call
          exact below call
    · exact slots _ outer

/-! ## Scopes around a place -/

/-- A place encloses another: it has a scope, and the other lies below it in a slot that belongs to
that scope. The call of a block does not. -/
def Encloses (t : Tree) (outer inner : Place) : Prop :=
  opensAt false t outer = true ∧ ∃ i rest, inner = outer ++ i :: rest ∧
    ∀ u, t.part? outer = some u → isCallSlot u i = false

theorem mem_around_iff {targets : Bool} {here : Place} {t : Tree} {inner : Place}
    (opened : opensAt targets t inner = true) (place : Place) :
    place ∈ around targets here t inner ↔ ∃ outer, place = here ++ outer ∧
      opensAt targets t outer = true ∧ ∃ i rest, inner = outer ++ i :: rest ∧
        ∀ u, t.part? outer = some u → isCallSlot u i = false := by
  induction inner generalizing targets here t with
  | nil =>
    constructor
    · intro mem
      cases mem
    · rintro ⟨outer, -, -, i, rest, same, -⟩
      cases outer <;> cases same
  | cons i inner ih =>
    obtain ⟨enters, c, found, opened⟩ := opensAt_cons.1 opened
    rw [around_cons found, List.mem_append, ih opened]
    constructor
    · rintro (⟨outer, rfl, opens, k, rest, rfl, slot⟩ | mem)
      · refine ⟨i :: outer, by rw [List.append_assoc]; rfl,
          opensAt_cons.2 ⟨enters, c, found, opens⟩, k, rest, rfl, ?_⟩
        intro u part
        rw [part?, found] at part
        exact slot u part
      · split at mem
        next own =>
          rw [Bool.and_eq_true, Bool.not_eq_true'] at own
          refine ⟨[], ?_, own.1, i, inner, rfl, ?_⟩
          · rw [List.mem_singleton.1 mem, List.append_nil]
          · intro u part
            cases part
            exact own.2
        next => cases mem
    · rintro ⟨outer, rfl, opens, k, rest, same, slot⟩
      cases outer with
      | nil =>
        cases same
        have own : (Tree.opens targets t && !isCallSlot t i) = true := by
          rw [opensAt] at opens
          rw [opens, slot t rfl]
          rfl
        rw [if_pos own, List.append_nil]
        exact .inr (List.mem_singleton_self here)
      | cons j outer =>
        cases same
        obtain ⟨-, c', found', opens⟩ := opensAt_cons.1 opens
        cases found.symm.trans found'
        refine .inl ⟨outer, by rw [List.append_assoc]; rfl, opens, k, rest, rfl, ?_⟩
        intro u part
        apply slot u
        rw [part?, found]
        exact part

/-- Scopes around a place are listed from the inside out. -/
theorem pairwise_around {targets : Bool} {here : Place} {t : Tree} {inner : Place}
    (opened : opensAt targets t inner = true) :
    (around targets here t inner).Pairwise fun p q => q.length < p.length := by
  induction inner generalizing targets here t with
  | nil => exact .nil
  | cons i inner ih =>
    obtain ⟨-, c, found, opened⟩ := opensAt_cons.1 opened
    rw [around_cons found, List.pairwise_append]
    refine ⟨ih opened, ?_, ?_⟩
    · split
      · exact List.pairwise_singleton _ _
      · exact .nil
    · intro p mem q own
      obtain ⟨outer, rfl, -⟩ := (mem_around_iff opened p).1 mem
      split at own
      · rw [List.mem_singleton.1 own]
        simp only [List.length_append, List.length_singleton]
        omega
      · cases own

/-! ## Places that are left out -/

/-- Whether a slot of a node holds the name of a method. -/
def holdsMethodName (t : Tree) (i : Nat) : Bool :=
  t.hasTag .defn && i == 0 || t.hasTag .defs && i == 1

/-- A place stands for the targets of a multiple assignment, or it lies in or below a slot that the
walk does not enter and that is not there for the name of a method. -/
def LeftOut (t : Tree) (place : Place) : Prop :=
  (∃ q u, place = q ++ [0] ∧ t.part? q = some u ∧ u.hasTag .masgn = true) ∨
    ∃ q i rest u, place = q ++ i :: rest ∧ t.part? q = some u ∧
      u.entersSlot i = false ∧ u.holdsMethodName i = false

theorem LeftOut.cons {t c : Tree} {i : Nat} {place : Place} (found : t.children[i]? = some c)
    (h : c.LeftOut place) : t.LeftOut (i :: place) := by
  have step (q : Place) : t.part? (i :: q) = c.part? q := by
    rw [part?, found]
    rfl
  rcases h with ⟨q, u, rfl, part, tag⟩ | ⟨q, k, rest, u, rfl, part, slot⟩
  · exact .inl ⟨i :: q, u, rfl, (step q).trans part, tag⟩
  · exact .inr ⟨i :: q, k, rest, u, rfl, (step q).trans part, slot⟩

/-- In a tree of proper shape the name of a method is an atom. -/
theorem isNode_eq_false_of_holdsMethodName {t c : Tree} {i : Nat} (proper : t.ownDefect? = none)
    (found : t.children[i]? = some c) (name : t.holdsMethodName i = true) : c.isNode = false := by
  have named {cs : List Tree} {i : Nat} (found : cs[i]? = some c) (name : nameAt cs i ≠ []) :
      c.isNode = false := by
    rw [nameAt, found] at name
    cases c with
    | atom a => rfl
    | node tag line cs => exact absurd rfl name
  rcases Bool.or_eq_true_iff.1 name with slot | slot
  all_goals
    obtain ⟨tag, slot⟩ := Bool.and_eq_true_iff.1 slot
    obtain ⟨line, cs, rfl⟩ := eq_node_of_hasTag tag
    cases beq_iff_eq.1 slot
    refine named found fun none => ?_
    rw [children] at none
    simp [ownDefect?, defect?, none] at proper

/-- In a tree of proper shape the walk opens a scope for each node that opens one and is not left
out. -/
theorem opensAt_of_not_leftOut {targets : Bool} {t u : Tree} {place : Place}
    (proper : t.malformed? = none) (part : t.part? place = some u)
    (kind : u.scopeKind?.isSome = true) (deep : targets = true → place ≠ [])
    (kept : ¬ t.LeftOut place) : opensAt targets t place = true := by
  induction place generalizing targets t with
  | nil =>
    cases part
    cases targets with
    | false => exact kind
    | true => exact absurd rfl (deep rfl)
  | cons i place ih =>
    obtain ⟨own, below⟩ := (malformed?_step t).1 proper
    obtain ⟨c, found, part⟩ := Option.bind_eq_some_iff.1 part
    have inner := below c (List.mem_of_getElem? found)
    refine opensAt_cons.2 ⟨?_, c, found, ih inner part ?_ fun left => kept (left.cons found)⟩
    · cases enters : t.entersSlot i with
      | true => rw [goesInto, enters, Bool.or_true]
      | false =>
        cases name : t.holdsMethodName i with
        | false => exact absurd (.inr ⟨[], i, place, t, rfl, rfl, enters, name⟩) kept
        | true =>
          -- nothing stands below the name of a method
          have leaf := isNode_eq_false_of_holdsMethodName own found name
          cases c with
          | node tag line cs => cases leaf
          | atom a =>
            cases place with
            | nil =>
              cases part
              cases kind
            | cons k place => cases part
    · rintro holds rfl
      rw [holdsTargets, Bool.and_eq_true, Bool.and_eq_true, beq_iff_eq] at holds
      obtain ⟨⟨-, tag⟩, rfl⟩ := holds
      exact kept (.inl ⟨[], t, rfl, rfl, tag⟩)

end Tree

end CodeSmell
