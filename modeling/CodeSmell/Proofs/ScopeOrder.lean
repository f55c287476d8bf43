import CodeSmell.Proofs.Nesting

/-!
# The order of examination

The outline of a tree whose walk meets no fault has the scopes of `Tree.nests`, nested in the same
way (`Tree.matches_outline`), and running an outline completes its scopes from the inside out
(`Item.Matches.completed`). So a tree is examined scope by scope, each scope once, after the scopes
in it, with the scopes around it in its chain.
-/

set_option autoImplicit false

namespace CodeSmell

/-! ## Runs -/

theorem Chain.map_node_record (chain : Chain) (o : Observation) :
    (chain.record o).map Scope.node = chain.map Scope.node := by
  refine List.ext_getElem? fun i => ?_
  rw [List.getElem?_map, List.getElem?_map, getElem?_record, Option.map_map]
  refine congrArg (Option.map · chain[i]?) (funext fun s => ?_)
  simp only [Function.comp_apply]
  split <;> rfl

namespace Item

theorem map_node_runAll {items : List Item} (sound : faultAmong? items = none) (chain : Chain) :
    (runAll items chain).chain.map Scope.node = chain.map Scope.node := by
  refine List.ext_getElem? fun i => ?_
  rw [List.getElem?_map, List.getElem?_map, getElem?_chain_runAll items sound, Option.map_map]
  rfl

mutual

/-- The scopes of a part of an outline in the order in which a run enters them. -/
def entered : Item → List Opening
  | .note _ => []
  | .scope o body => o :: enteredAll body
  | .fault _ => []

/-- The scopes of an outline in the order in which a run enters them. -/
def enteredAll : List Item → List Opening
  | [] => []
  | item :: rest => entered item ++ enteredAll rest

end

/-- An outline without faults has the scopes of a forest, nested in the same way, and each has been
opened for the node at its place. -/
inductive Matches (root : Tree) : List Item → List Nest → Prop
  | nil : Matches root [] []
  | note {o : Observation} {rest : List Item} {ns : List Nest} :
    Matches root rest ns → Matches root (.note o :: rest) ns
  | scope {o : Opening} {place : Place} {body rest : List Item} {inner ns : List Nest} :
    root.part? place = some o.node → Matches root body inner → Matches root rest ns →
      Matches root (.scope o body :: rest) (.mk place inner :: ns)

namespace Matches

variable {root : Tree} {items more : List Item} {ns ns' : List Nest}

theorem append (h : Matches root items ns) (h' : Matches root more ns') :
    Matches root (items ++ more) (ns ++ ns') := by
  induction h with
  | nil => exact h'
  | note _ ih => exact .note ih
  | scope node body _ _ ih => exact .scope node body ih

theorem faultAmong? (h : Matches root items ns) : faultAmong? items = none := by
  induction h with
  | nil => rfl
  | note _ ih => exact ih
  | scope _ _ _ ihBody ihRest => rw [Item.faultAmong?, fault?, ihBody, ihRest, Option.none_or]

/-- Scopes are entered in the order of the forest. -/
theorem entered (h : Matches root items ns) (outer : List Place) :
    List.Forall₂ (fun o site => root.part? site.place = some o.node) (enteredAll items)
      (Nest.enteredAll outer ns) := by
  induction h generalizing outer with
  | nil => exact .nil
  | note _ ih => exact ih outer
  | scope node _ _ ihBody ihRest =>
    rw [enteredAll, Item.entered, Nest.enteredAll, Nest.entered]
    apply List.rel_append
    · exact .cons node (ihBody _)
    · exact ihRest outer

/-- A chain has the scopes of the nodes at given places, inside the outermost scope. -/
def Follows (root : Tree) (chain : Chain) (places : List Place) : Prop :=
  chain.map Scope.node = places.map root.part? ++ [none]

/-- A run completes scopes in the order of the forest, each inside the scopes around it. -/
theorem completed (h : Matches root items ns) {chain : Chain} {outer : List Place}
    (follows : Follows root chain outer) :
    List.Forall₂ (fun chain site => Follows root chain (site.place :: site.around))
      (runAll items chain).completed (Nest.completedAll outer ns) := by
  induction h generalizing chain outer with
  | nil => exact .nil
  | note _ ih =>
    rw [runAll_note]
    exact ih ((chain.map_node_record _).trans follows)
  | @scope o place body rest inner ns node nested _ ihBody ihRest =>
    have entry : Follows root (o.scopeIn chain :: chain) (place :: outer) := by
      rw [Follows, List.map_cons, follows, List.map_cons, node]
      rfl
    -- the run of the body changes what is noted, not the scopes
    have inside : Follows root (runAll body (o.scopeIn chain :: chain)).chain (place :: outer) :=
      (map_node_runAll nested.faultAmong? _).trans entry
    have outside : Follows root (runAll body (o.scopeIn chain :: chain)).chain.tail outer := by
      rw [Follows, List.map_tail, inside]
      rfl
    rw [runAll_scope o nested.faultAmong?, Nest.completedAll, Nest.completed, List.append_assoc]
    apply List.rel_append
    · exact ihBody entry
    · exact .cons inside (ihRest outside)

end Matches

end Item

/-! ## The outline of a tree -/

namespace Tree

open Item

variable {root : Tree}

theorem matches_notes {items : List Item} {ns : List Nest} (h : Matches root items ns)
    (os : List Observation) : Matches root (notes os ++ items) ns := by
  induction os with
  | nil => exact h
  | cons o os ih => exact .note ih

/-- Moves that visit no tree open no scope. -/
theorem matches_moves {ms : List Move} (sound : ∀ m ∈ ms, m.Sound)
    (still : ms.flatMap Move.trees = []) : Matches root (ms.flatMap Move.outline) [] := by
  induction ms with
  | nil => exact .nil
  | cons m ms ih =>
    rw [List.forall_mem_cons] at sound
    rw [List.flatMap_cons, List.append_eq_nil_iff] at still
    have rest := ih sound.2 still.2
    cases m with
    | note o => exact .note rest
    | sign t method =>
      obtain ⟨text, rendered⟩ := sound.1
      rw [List.flatMap_cons, Move.outline_sign, callNote, rendered]
      exact .note rest
    | visit t => cases still.1

section Slots

variable {enters targetsAt : Nat → Bool} {here : Place}

theorem matches_nestsAmong {f : Tree → List Item} (i : Nat) (cs : List Tree)
    (each : ∀ j c, cs[j]? = some c → enters (i + j) = true ∧
      Matches root (f c) (nests (targetsAt (i + j)) (here ++ [i + j]) c)) :
    Matches root (cs.flatMap f) (nestsAmong enters targetsAt here i cs) := by
  induction cs generalizing i with
  | nil => exact .nil
  | cons c cs ih =>
    obtain ⟨entered, first⟩ := each 0 c rfl
    rw [Nat.add_zero] at entered first
    rw [List.flatMap_cons, nestsAmong, if_pos entered]
    refine first.append (ih (i + 1) fun j c' found => ?_)
    rw [Nat.add_right_comm]
    exact each (j + 1) c' found

theorem nestsAmong_drop (i k : Nat) (cs : List Tree) (skipped : ∀ j < k, enters (i + j) = false) :
    nestsAmong enters targetsAt here i cs
      = nestsAmong enters targetsAt here (i + k) (cs.drop k) := by
  induction k generalizing i cs with
  | zero => rfl
  | succ k ih =>
    cases cs with
    | nil => rfl
    | cons c cs =>
      have first : enters i = false := skipped 0 (Nat.succ_pos k)
      rw [nestsAmong, first, if_neg Bool.false_ne_true, List.nil_append, List.drop_succ_cons,
        ih (i + 1) cs fun j less => ?_, Nat.add_right_comm]
      · rfl
      · rw [Nat.add_right_comm]
        exact skipped (j + 1) (Nat.succ_lt_succ less)

theorem nestsAmong_eq_nil (i : Nat) (cs : List Tree) (skipped : ∀ j, i ≤ j → enters j = false) :
    nestsAmong enters targetsAt here i cs = [] := by
  rw [nestsAmong_drop i cs.length cs fun j _ => skipped _ (Nat.le_add_right i j),
    List.drop_length, nestsAmong]

/-- If only one slot is entered, the scopes are those of the tree in it. -/
theorem nestsAmong_single {cs : List Tree} {i : Nat} {c : Tree} (found : cs[i]? = some c)
    (only : ∀ j, enters j = decide (j = i)) :
    nestsAmong enters targetsAt here 0 cs = nests (targetsAt i) (here ++ [i]) c := by
  obtain ⟨inRange, rfl⟩ := List.getElem?_eq_some_iff.1 found
  have before (j : Nat) (less : j < i) : enters (0 + j) = false := by
    rw [only, decide_eq_false_iff_not]
    omega
  have after (j : Nat) (more : i + 1 ≤ j) : enters j = false := by
    rw [only, decide_eq_false_iff_not]
    omega
  rw [nestsAmong_drop 0 i cs before, Nat.zero_add, List.drop_eq_getElem_cons inRange, nestsAmong,
    only, if_pos (decide_eq_true rfl), nestsAmong_eq_nil (i + 1) _ after, List.append_nil]

end Slots

/-- Wherever a tree stands, its outline has the scopes that it opens there. -/
def Fits (root t : Tree) : Prop :=
  ∀ here, root.part? here = some t → Matches root t.outline (nests false here t)

section Slots

variable {enters targetsAt : Nat → Bool} {here : Place} {t : Tree}

theorem part?_slot (part : root.part? here = some t) (i : Nat) :
    root.part? (here ++ [i]) = t.children[i]? := by
  rw [part?_append, part, Option.bind_some, part?]
  cases t.children[i]? <;> rfl

/-- The children of a node from a slot on, none of which stands for targets. -/
theorem matches_slots (part : root.part? here = some t) (k : Nat)
    (fits : ∀ c ∈ t.children.drop k, Fits root c) (slots : ∀ i, enters i = decide (k ≤ i))
    (plain : ∀ i, k ≤ i → targetsAt i = false) :
    Matches root ((t.children.drop k).flatMap outline)
      (nestsAmong enters targetsAt here 0 t.children) := by
  rw [nestsAmong_drop 0 k t.children fun j less => by rw [slots]; simpa using less, Nat.zero_add]
  refine matches_nestsAmong k _ fun j c found => ⟨by rw [slots]; simp, ?_⟩
  rw [plain _ (Nat.le_add_right k j)]
  apply fits c (List.mem_of_getElem? found)
  rw [part?_slot part, ← List.getElem?_drop, found]

theorem nests_of_scopeKind?_eq_none (kind : t.scopeKind? = none) :
    nests false here t
      = nestsAmong (fun i => t.entersSlot i) (holdsTargets false t) here 0 t.children := by
  rw [nests_eq, opens, kind]
  simp [goesInto]

theorem nests_of_scopeKind?_eq_some {kind : ScopeKind} (found : t.scopeKind? = some kind) :
    nests false here t
      = nestsAmong (fun i => t.entersSlot i && isCallSlot t i) (holdsTargets false t) here 0
          t.children
        ++ [.mk here (nestsAmong (fun i => t.entersSlot i && !isCallSlot t i)
          (holdsTargets false t) here 0 t.children)] := by
  rw [nests_eq, opens, found]
  simp [goesInto]

/-- A node opens no scope, all its children are walked, and none stands for targets. -/
structure Passes (t : Tree) : Prop where
  kind : t.scopeKind? = none
  enters : ∀ i, t.entersSlot i = true
  tag : t.hasTag .masgn = false

/-- The children of a node that opens no scope make up its scopes. -/
theorem Passes.matches (passes : t.Passes) (part : root.part? here = some t)
    (fits : ∀ c ∈ t.children, Fits root c) :
    Matches root (t.children.flatMap outline) (nests false here t) := by
  rw [nests_of_scopeKind?_eq_none passes.kind]
  refine matches_slots part 0 fits (fun i => ?_) fun i _ => ?_
  · rw [passes.enters]
    rfl
  · rw [holdsTargets, passes.tag]
    rfl

/-- The body of a node that opens a scope is what stands in the slots that the walk enters, but for
the call of a block. -/
theorem entersSlot_of_scopeKind? {kind : ScopeKind} (found : t.scopeKind? = some kind) (i : Nat) :
    (t.entersSlot i && !isCallSlot t i)
      = (hasWalkedBody kind t.children && decide (bodyStart kind ≤ i)) := by
  have all (kind : ScopeKind) (other : kind ≠ .classBody) (cs : List Tree) :
      hasWalkedBody kind cs = true := by
    rw [hasWalkedBody, bne_iff_ne.2 other, Bool.true_or]
  unfold scopeKind? at found
  rw [Bool.eq_iff_iff, Bool.and_eq_true, Bool.and_eq_true, decide_eq_true_eq]
  split at found <;> cases found
  case h_2 => simp [entersSlot, isCallSlot, hasTag, hasWalkedBody, bodyStart, children, and_comm]
  all_goals
    rw [all _ (by decide)]
    simp [entersSlot, isCallSlot, hasTag, bodyStart, Nat.one_le_iff_ne_zero]

/-- The scope that a node opens. -/
theorem matches_ownScope {kind : ScopeKind} (found : t.scopeKind? = some kind) {o : Opening}
    (opening : t.opening kind = .ok o) (part : root.part? here = some t)
    (fits : ∀ c ∈ t.within, Fits root c) :
    Matches root t.ownScope [.mk here (nestsAmong (fun i => t.entersSlot i && !isCallSlot t i)
      (holdsTargets false t) here 0 t.children)] := by
  have plain (i : Nat) : holdsTargets false t i = false := by
    unfold scopeKind? at found
    split at found <;> cases found <;> rfl
  rw [within_of_scopeKind? found, bodyOf] at fits
  simp only [entersSlot_of_scopeKind? found]
  rw [ownScope, found, Option.map_some, Option.toList_some, opened, opening]
  refine .scope ?_ (matches_notes ?_ _) .nil
  · rw [part, (opening_eq_ok opening).2]
  · rw [bodyOf]
    split
    next walked =>
      rw [if_pos walked] at fits
      refine matches_slots part _ fits (fun i => ?_) fun i _ => plain i
      rw [walked, Bool.true_and]
    next walked =>
      rw [Bool.not_eq_true] at walked
      rw [nestsAmong_eq_nil 0 _ fun j _ => by rw [walked, Bool.false_and]]
      exact .nil

/-- A target of a multiple assignment. -/
theorem matches_target (part : root.part? here = some t)
    (fits : ∀ u ∈ (targetMoves t).flatMap Move.trees, Fits root u) :
    Matches root ((targetMoves t).flatMap Move.outline) (nests false here t) := by
  rw [targetMoves, flatMap_trees_visits] at fits
  rw [targetMoves, flatMap_outline_visits]
  split at fits
  next writer =>
    rw [if_pos writer]
    obtain ⟨line, cs, rfl⟩ := eq_node_of_hasTag writer
    exact Passes.matches ⟨rfl, fun _ => rfl, rfl⟩ part fits
  next writer =>
    rw [if_neg writer, List.flatMap_singleton]
    exact fits t (List.mem_singleton_self t) here part

/-- An element of a parameter list. -/
theorem matches_parameter (part : root.part? here = some t)
    (fits : ∀ u ∈ (parameterMoves t).flatMap Move.trees, Fits root u) :
    Matches root ((parameterMoves t).flatMap Move.outline) (nests false here t) := by
  unfold parameterMoves at fits ⊢
  split at fits
  · rw [nests]
    exact .note .nil
  · rw [List.flatMap_cons, flatMap_trees_visits] at fits
    rw [List.flatMap_cons, flatMap_outline_visits]
    exact .note (Passes.matches ⟨rfl, fun _ => rfl, rfl⟩ part fits)
  · rw [List.flatMap_cons, flatMap_trees_visits] at fits
    rw [List.flatMap_cons, flatMap_outline_visits]
    exact .note (Passes.matches ⟨rfl, fun _ => rfl, rfl⟩ part fits)
  · rw [List.flatMap_singleton] at fits ⊢
    exact fits _ (List.mem_singleton_self _) here part

theorem matches_compound {line : Int} {cs : List Tree}
    (part : root.part? here = some (.node (.known .opAsgn) line cs))
    (fits : ∀ u ∈ (compoundMoves line cs).flatMap Move.trees, Fits root u) :
    Matches root ((compoundMoves line cs).flatMap Move.outline)
      (nests false here (.node (.known .opAsgn) line cs)) := by
  have variable_iff : (cs[0]?.bind (compoundNotes? line)).isSome = cs[0]?.any isVariable := by
    cases cs[0]? with
    | none => rfl
    | some target => exact isSome_compoundNotes? line target
  rw [nests_of_scopeKind?_eq_none rfl]
  unfold compoundMoves at fits ⊢
  split at fits
  next os found =>
    rw [found] at variable_iff
    rw [List.flatMap_append, flatMap_note Move.trees_note, flatMap_trees_visits] at fits
    rw [List.flatMap_append, flatMap_outline_note, flatMap_outline_visits]
    refine matches_notes (matches_slots part 1 fits (fun i => ?_) fun i _ => rfl) os
    simp [entersSlot, ← variable_iff]
  next found =>
    rw [found] at variable_iff
    rw [flatMap_trees_visits] at fits
    rw [flatMap_outline_visits]
    refine matches_slots part 0 fits (fun i => ?_) fun i _ => rfl
    simp [entersSlot, ← variable_iff]

theorem matches_conditional {k : Keyword} {line : Int} {cs : List Tree}
    (kind : k = .opAsgnOr ∨ k = .opAsgnAnd)
    (part : root.part? here = some (.node (.known k) line cs))
    (fits : ∀ u ∈ (conditionalMoves line cs).flatMap Move.trees, Fits root u) :
    Matches root ((conditionalMoves line cs).flatMap Move.outline)
      (nests false here (.node (.known k) line cs)) := by
  have closed : (node (.known k) line cs).scopeKind? = none := by
    rcases kind with rfl | rfl <;> rfl
  have enters (i : Nat) :
      (node (.known k) line cs).entersSlot i = (decide (i = 1) || !cs[1]?.any isAssignment) := by
    rcases kind with rfl | rfl <;> rfl
  have plain (i : Nat) : holdsTargets false (.node (.known k) line cs) i = false := by
    rcases kind with rfl | rfl <;> rfl
  -- without an assignment to a variable all children are walked
  have all (other : cs[1]?.any isAssignment = false) (fits : ∀ u ∈ cs, Fits root u) :
      Matches root (cs.flatMap outline) (nests false here (.node (.known k) line cs)) := by
    rw [nests_of_scopeKind?_eq_none closed]
    refine matches_slots part 0 fits (fun i => ?_) fun i _ => plain i
    rw [enters, other]
    simp
  unfold conditionalMoves at fits ⊢
  cases found : cs[1]? with
  | none =>
    rw [found, flatMap_trees_visits] at fits
    rw [flatMap_outline_visits]
    exact all (by rw [found]; rfl) fits
  | some assignment =>
    simp only [found] at fits ⊢
    have assigns := isSome_conditionalNotes? line assignment
    cases noted : conditionalNotes? line assignment with
    | none =>
      rw [noted] at assigns
      rw [noted, flatMap_trees_visits] at fits
      rw [flatMap_outline_visits]
      exact all (by rw [found]; exact assigns.symm) fits
    | some os =>
      rw [noted] at assigns
      simp only [noted, List.flatMap_append, flatMap_note Move.trees_note, flatMap_trees_visits,
        List.nil_append] at fits
      simp only [List.flatMap_append, flatMap_outline_note, flatMap_outline_visits]
      refine matches_notes ?_ os
      have passes : assignment.Passes := by
        rcases Bool.or_eq_true_iff.1 assigns.symm with tag | tag <;>
          obtain ⟨line, cs, rfl⟩ := eq_node_of_hasTag tag <;> exact ⟨rfl, fun _ => rfl, rfl⟩
      -- of all the slots only that of the assignment is entered
      have single : nests false here (.node (.known k) line cs)
          = nests false (here ++ [1]) assignment := by
        have only (i : Nat) : (node (.known k) line cs).entersSlot i = decide (i = 1) := by
          rw [enters, found, Option.any_some, ← assigns]
          simp
        rw [nests_of_scopeKind?_eq_none closed, children, nestsAmong_single found only, plain]
      rw [single]
      exact passes.matches ((part?_slot part 1).trans found) fits

theorem matches_multiple {line : Int} {cs : List Tree}
    (part : root.part? here = some (.node (.known .masgn) line cs))
    (fits : ∀ u ∈ (multipleMoves cs).flatMap Move.trees, Fits root u) :
    Matches root ((multipleMoves cs).flatMap Move.outline)
      (nests false here (.node (.known .masgn) line cs)) := by
  rw [nests_of_scopeKind?_eq_none rfl]
  cases cs with
  | nil => exact .nil
  | cons left values =>
    rw [multipleMoves, List.flatMap_append, flatMap_trees_visits, List.flatMap_assoc,
      List.forall_mem_append] at fits
    rw [multipleMoves, List.flatMap_append, flatMap_outline_visits, List.flatMap_assoc]
    have first : root.part? (here ++ [0]) = some left := part?_slot part 0
    rw [children, nestsAmong]
    refine Matches.append ?_ (matches_nestsAmong 1 values fun j c found => ⟨rfl, ?_⟩)
    · -- the targets are the children of the first child
      have plain (i : Nat) : holdsTargets true left i = false := by rw [holdsTargets]; rfl
      change Matches root _ (nests true (here ++ [0]) left)
      rw [nests_eq, opens]
      refine matches_nestsAmong 0 _ fun j c found => ⟨rfl, ?_⟩
      rw [plain]
      refine matches_target ?_ fun u mem => ?_
      · rw [part?_slot first, Nat.zero_add, found]
      · exact fits.1 u (List.mem_flatMap.2 ⟨c, List.mem_of_getElem? found, mem⟩)
    · have later : holdsTargets false (.node (.known .masgn) line (left :: values)) (1 + j)
          = false := by
        rw [holdsTargets, beq_eq_false_iff_ne.2 (by omega), Bool.and_false]
      rw [later]
      apply fits.2 c (List.mem_of_getElem? found)
      rw [part?_slot part, Nat.add_comm]
      exact found

/-- The call of a block, and nothing else, comes before the scope that a node opens. -/
theorem matches_moves_of_scopeKind? {kind : ScopeKind} (found : t.scopeKind? = some kind)
    (part : root.part? here = some t) (sound : ∀ m ∈ t.moves, m.Sound)
    (fits : ∀ u ∈ t.moves.flatMap Move.trees, Fits root u) :
    Matches root (t.moves.flatMap Move.outline)
      (nestsAmong (fun i => t.entersSlot i && isCallSlot t i) (holdsTargets false t) here 0
        t.children) := by
  unfold scopeKind? at found
  split at found <;> cases found
  case h_5 line cs =>
    rw [moves, List.forall_mem_append, List.forall_mem_singleton] at sound
    rw [moves, List.flatMap_append, flatMap_trees_visits] at fits
    rw [moves, List.flatMap_append, flatMap_outline_visits]
    obtain ⟨text, rendered⟩ := sound.2
    have signed {items : List Item} {ns : List Nest} (h : Matches root items ns) :
        Matches root (items ++ [Move.sign (.node (.known .iter) line cs)
          ((cs[0]?.map calledMethod).getD [])].flatMap Move.outline) ns := by
      rw [List.flatMap_singleton, Move.outline_sign, callNote, rendered, ← List.append_nil ns]
      exact h.append (.note .nil)
    apply signed
    cases cs with
    | nil => exact .nil
    | cons call body =>
      rw [children, nestsAmong, nestsAmong_eq_nil 1 body fun j less => ?_]
      · exact (fits call (by simp) _ (part?_slot part 0)).append .nil
      · have later : (j == 0) = false := beq_eq_false_iff_ne.2 (by omega)
        simp [isCallSlot, later]
  all_goals
    rw [nestsAmong_eq_nil 0 _ ?_]
    · exact .nil
    · exact fun j _ => Bool.and_false _

end Slots

/-- The outline of a tree without faults has the scopes that the tree opens. -/
theorem matches_outline (t : Tree) (free : faultAmong? t.outline = none) : Fits root t := by
  induction t using walk_induction with
  | step t ih =>
    obtain ⟨sound, below⟩ := (faultAmong?_outline_step t).1 free
    have fits : ∀ u ∈ t.walked, Fits root u := fun u walked => ih u walked (below u walked)
    rw [walked, List.forall_mem_append] at fits
    intro here part
    rw [outline_eq_moves]
    cases found : t.scopeKind? with
    | some kind =>
      obtain ⟨o, opening⟩ := sound.2 kind found
      rw [nests_of_scopeKind?_eq_some found]
      apply Matches.append
      · exact matches_moves_of_scopeKind? found part sound.1 fits.1
      · exact matches_ownScope found opening part fits.2
    | none =>
      rw [ownScope, found, Option.map_none, Option.toList_none, List.append_nil]
      have fits := fits.1
      cases t with
      | atom a => exact .nil
      | node tag line cs =>
        -- most nodes note something and go on to all their children
        have plain (moves : (node tag line cs).moves = ownMoves tag line cs ++ visits cs)
            (passes : (node tag line cs).Passes) :
            Matches root ((node tag line cs).moves.flatMap Move.outline)
              (nests false here (.node tag line cs)) := by
          rw [moves, List.flatMap_append, flatMap_trees_ownMoves, flatMap_trees_visits] at fits
          rw [moves, List.flatMap_append, flatMap_outline_visits]
          refine Matches.append (matches_moves ?_ (flatMap_trees_ownMoves tag line cs))
            (passes.matches part fits)
          exact fun m own => sound.1 m (moves ▸ List.mem_append_left _ own)
        have still (moves : (node tag line cs).moves = ownMoves tag line cs)
            (left : ∀ i, (node tag line cs).entersSlot i = false) :
            Matches root ((node tag line cs).moves.flatMap Move.outline)
              (nests false here (.node tag line cs)) := by
          rw [nests_of_scopeKind?_eq_none found, nestsAmong_eq_nil 0 _ fun i _ => left i]
          exact matches_moves sound.1 (moves ▸ flatMap_trees_ownMoves tag line cs)
        cases tag with
        | other word unknown => exact plain rfl ⟨rfl, fun _ => rfl, rfl⟩
        | known k =>
          cases k
          case moduleDef | classDef | defn | defs | iter | «if» | yield => cases found
          case vcall | ivar | self | zsuper => exact still rfl fun _ => rfl
          case args =>
            rw [moves, List.flatMap_assoc] at fits ⊢
            rw [nests_of_scopeKind?_eq_none found]
            refine matches_nestsAmong 0 cs fun j c mem => ⟨rfl, ?_⟩
            refine matches_parameter ((part?_slot part _).trans ?_) fun u moved => ?_
            · rw [Nat.zero_add]
              exact mem
            · exact fits u (List.mem_flatMap.2 ⟨c, List.mem_of_getElem? mem, moved⟩)
          case opAsgn => exact matches_compound part fits
          case opAsgnOr => exact matches_conditional (.inl rfl) part fits
          case opAsgnAnd => exact matches_conditional (.inr rfl) part fits
          case masgn => exact matches_multiple part fits
          all_goals exact plain rfl ⟨rfl, fun _ => rfl, rfl⟩

/-! ## Examination -/

/-- The scopes of a tree in the order in which they are completed. -/
def completedSites (t : Tree) : List Site := Nest.completedAll [] (nests false [] t)

/-- The scopes of a tree in the order in which they are entered. -/
def enteredSites (t : Tree) : List Site := Nest.enteredAll [] (nests false [] t)

theorem mem_completedSites (t : Tree) (site : Site) :
    site ∈ t.completedSites ↔ opensAt false t site.place = true ∧
      site.around = around false [] t site.place := by
  rw [completedSites, mem_completedAll_nests]
  constructor
  · rintro ⟨place, opens, rfl⟩
    exact ⟨opens, List.append_nil _⟩
  · rintro ⟨opens, around⟩
    refine ⟨site.place, opens, ?_⟩
    rw [List.append_nil, ← around]
    rfl

theorem mem_map_completedSites (t : Tree) (place : Place) :
    place ∈ t.completedSites.map Site.place ↔ opensAt false t place = true := by
  rw [List.mem_map]
  constructor
  · rintro ⟨site, mem, rfl⟩
    exact ((mem_completedSites t site).1 mem).1
  · intro opens
    exact ⟨⟨place, around false [] t place⟩, (mem_completedSites t _).2 ⟨opens, rfl⟩, rfl⟩

theorem part?_of_opensAt {targets : Bool} {t : Tree} {place : Place}
    (opened : opensAt targets t place = true) :
    ∃ u, t.part? place = some u ∧ u.scopeKind?.isSome = true := by
  induction place generalizing targets t with
  | nil => exact ⟨t, rfl, (Bool.and_eq_true_iff.1 opened).2⟩
  | cons i place ih =>
    obtain ⟨-, c, found, opened⟩ := opensAt_cons.1 opened
    rw [part?, found]
    exact ih opened

/-- A tree of proper shape whose walk meets no fault is examined scope by scope, each scope once and
after the scopes in it. The chain of a scope has the scopes that enclose it, from the inside out. Of
two scopes the one that is entered first is examined first unless the other lies in it. A node that
opens a scope has one unless it is left out. -/
theorem examineScopes_once_innermost_first (t : Tree) (valid : Tree.validate (some t) = .ok ())
    (sound : t.walk.fault = none) :
    ∃ chains root, t.examineScopes = .ok (chains, root) ∧
      List.Forall₂ (fun chain site => Matches.Follows t chain (site.place :: site.around)) chains
        t.completedSites ∧
      List.Forall₂ (fun o site => t.part? site.place = some o.node) (enteredAll t.outline)
        t.enteredSites ∧
      t.completedSites.Perm t.enteredSites ∧
      (t.completedSites.map Site.place).Nodup ∧
      (∀ place, place ∈ t.completedSites.map Site.place ↔ opensAt false t place = true) ∧
      (∀ site ∈ t.completedSites,
        (∃ u, t.part? site.place = some u ∧ u.scopeKind?.isSome = true) ∧
        (∀ place, place ∈ site.around ↔ t.Encloses place site.place) ∧
        (site.around.Pairwise fun inner outer => outer.length < inner.length) ∧
        ∀ place ∈ site.around, [site.place, place].Sublist (t.completedSites.map Site.place)) ∧
      (∀ s s', s.place ∉ s'.around → [s, s'].Sublist t.enteredSites →
        [s, s'].Sublist t.completedSites) ∧
      ∀ place u, t.part? place = some u → u.scopeKind?.isSome = true → ¬ t.LeftOut place →
        place ∈ t.completedSites.map Site.place := by
  have nested : Matches t t.outline (nests false [] t) :=
    matches_outline t (fault_walk t ▸ sound) [] rfl
  have scopes : t.examineScopes = .ok (t.walk.completed, t.walk.chain) := by
    rw [examineScopes, valid, Tree.scopes, sound]
    rfl
  refine ⟨_, _, scopes, nested.completed rfl, nested.entered [], Nest.completedAll_perm _ [],
    nodup_completedAll_nests t false [] [], mem_map_completedSites t, ?_, ?_, ?_⟩
  · intro site mem
    obtain ⟨opens, around⟩ := (mem_completedSites t site).1 mem
    refine ⟨part?_of_opensAt opens, ?_, ?_, ?_⟩
    · intro place
      rw [around, mem_around_iff opens, Encloses]
      simp
    · rw [around]
      exact pairwise_around opens
    · intro place outer
      rcases Nest.pair_sublist_of_mem_around _ [] mem outer with none | order
      · cases none
      · exact order
  · intro s s' apart order
    exact Nest.pair_sublist_of_entered _ [] order apart
  · intro place u part kind kept
    rw [mem_map_completedSites]
    exact opensAt_of_not_leftOut (validate_eq_ok_iff.1 valid) part kind
      (by rintro ⟨⟩) kept

end Tree

/-- A class with a method in which a block is given to a call on a conditional. -/
def shelfClass : Tree :=
  let name (text : String) := Tree.atom (.sym text)
  let boxes := Tree.known .if 3 [.known .lvar 3 [name "full"], .known .lvar 3 [name "boxes"]]
  .known .classDef 1 [name "Shelf", .atom .nil,
    .known .defn 2 [name "fill", .known .args 2 [name "boxes"],
      .known .iter 3 [.known .call 3 [boxes, name "each"], .known .args 3 [name "box"],
        .known .yield 4 [.known .lvar 4 [name "box"]]]]]

/-- The conditional is examined before the block and in the scope of the method, the yield before
the block and in its scope. -/
theorem shelfClass_examined :
    Tree.validate (some shelfClass) = .ok () ∧ shelfClass.walk.fault = none ∧
      ¬ shelfClass.LeftOut [2] ∧ [2] ∈ shelfClass.completedSites.map Site.place ∧
      shelfClass.completedSites.map Site.place
        = [[2, 2, 0, 0], [2, 2, 2], [2, 2], [2], []] ∧
      shelfClass.enteredSites.map Site.place = [[], [2], [2, 2, 0, 0], [2, 2], [2, 2, 2]] ∧
      ∃ chains root, shelfClass.examineScopes = .ok (chains, root) ∧
        chains.map (fun chain => chain.map Scope.kind)
          = [[.conditional, .method, .classBody, .root],
            [.yieldCall, .block, .method, .classBody, .root],
            [.block, .method, .classBody, .root], [.method, .classBody, .root],
            [.classBody, .root]] ∧
        List.Forall₂ (fun chain site =>
          Item.Matches.Follows shelfClass chain (site.place :: site.around)) chains
          shelfClass.completedSites := by
  obtain ⟨chains, root, examined, completed, -, -, -, -, -, -, all⟩ :=
    Tree.examineScopes_once_innermost_first shelfClass rfl rfl
  have kept : ¬ shelfClass.LeftOut [2] := by
    rintro (⟨q, u, place, -, -⟩ | ⟨q, i, rest, u, place, part, enters, -⟩)
    · match q with
      | [] => cases place
      | [_] => cases place
      | _ :: _ :: _ => cases place
    · match q with
      | [] =>
        cases place
        cases part
        cases enters
      | [_] => cases place
      | _ :: _ :: _ => cases place
  refine ⟨rfl, rfl, kept, all [2] _ rfl rfl kept, rfl, rfl, chains, root, examined, ?_, completed⟩
  cases examined
  rfl

end CodeSmell
