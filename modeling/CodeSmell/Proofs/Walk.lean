import CodeSmell.Proofs.Parts
import CodeSmell.Scope.Outline

/-!
# What the walk does at a node

At a node the walk notes some things, goes on to some of the trees below in the same scope, and then
opens a scope of its own for the rest if the node is one that does. `Tree.moves` lists what happens
in the scope around the node, in the order in which it happens, `Tree.scopeKind?` tells whether the
node opens a scope, and `Tree.within` lists the trees that are walked in that scope. The outline of
a tree is what these make together (`Tree.outline_eq_moves`). All that is said about the walk rests
on this equation.

`Tree.Reaches` is the relation between a tree and the trees that the walk comes to from it.
-/

set_option autoImplicit false

namespace CodeSmell

/-- One thing that the walk does at a node in the scope around it. -/
inductive Move where
  /-- Something is noted. -/
  | note (o : Observation)
  /-- A tree is noted as a call of a method. -/
  | sign (t : Tree) (method : Text)
  /-- The walk goes on to a tree. -/
  | visit (t : Tree)

namespace Tree

/-! ## Moves -/

/-- The walk goes on to several trees one after the other. -/
def visits (ts : List Tree) : List Move := ts.map .visit

/-- The moves at a call with a receiver slot, before its children are visited. -/
def callMoves (t : Tree) : List Move :=
  let cs := t.children
  let method := nameAt cs 1
  if isEmptyAt cs 0 then
    .note .dependsOnSelf :: if (argumentsAt cs 2).isEmpty then [] else [.sign t method]
  else (receiverNotes cs[0]? method t.line).map .note ++ [.sign t method]

/-- The moves at a call on the object itself, before its children are visited. -/
def selfCallMoves (t : Tree) : List Move :=
  let cs := t.children
  .note .useOfSelf :: if (argumentsAt cs 1).isEmpty then [] else [.sign t (nameAt cs 0)]

/-- The moves at a target of a multiple assignment. -/
def targetMoves (t : Tree) : List Move :=
  visits (if t.hasTag .attrasgn then t.children else [t])

/-- The moves at an element of a parameter list. -/
def parameterMoves : Tree → List Move
  | .atom a => [.note (.parameter (parameterName a))]
  | .node (.known .lasgn) _ cs | .node (.known .dasgnCurr) _ cs =>
    .note (.parameter (nameAt cs 0)) :: visits cs
  | .node tag line cs => [.visit (.node tag line cs)]

/-- The moves at a compound assignment. -/
def compoundMoves (line : Int) (cs : List Tree) : List Move :=
  match cs[0]?.bind (compoundNotes? line) with
  | some os => os.map .note ++ visits (cs.drop 1)
  | none => visits cs

/-- The moves at an assignment that happens only under a condition. -/
def conditionalMoves (line : Int) (cs : List Tree) : List Move :=
  match cs[1]? with
  | some assignment =>
    match conditionalNotes? line assignment with
    | some os => os.map .note ++ visits assignment.children
    | none => visits cs
  | none => visits cs

/-- The moves at a multiple assignment. -/
def multipleMoves : List Tree → List Move
  | [] => []
  | left :: values => left.children.flatMap targetMoves ++ visits values

/-- What is noted at a node before the walk goes on. -/
def ownMoves (tag : Tag) (line : Int) (cs : List Tree) : List Move :=
  match tag with
  | .known .call | .known .attrasgn => callMoves (.node tag line cs)
  | .known .fcall => selfCallMoves (.node tag line cs)
  | .known .vcall => [.note .useOfSelf]
  | .known .opAsgn1 =>
    (receiverNotes cs[0]? "[]" line).map .note ++ [.sign (.node tag line cs) "[]"]
  | .known .match2 => [.sign (.node tag line cs) "=~"]
  | .known .match3 =>
    (receiverNotes cs[1]? "=~" line).map .note ++ [.sign (.node tag line cs) "=~"]
  | .known .ivar => [.note (.instanceVariable (nameAt cs 0) .read line), .note .dependsOnSelf]
  | .known .iasgn => [.note (.instanceVariable (nameAt cs 0) .write line), .note .dependsOnSelf]
  | .known .lasgn => [.note (.local (nameAt cs 0))]
  | .known .dasgnCurr => [.note (.parameter (nameAt cs 0))]
  | .known .block => [.note (.statements (countStatements cs))]
  | .known .self | .known .zsuper | .known .super => [.note .dependsOnSelf]
  | _ => []

/-- What the walk does at a tree in the scope around it. -/
def moves : Tree → List Move
  | .atom _ => []
  | .node tag line cs =>
    match tag with
    | .known .moduleDef | .known .classDef | .known .defn | .known .defs => []
    | .known .if | .known .yield => []
    | .known .iter =>
      visits (cs.take 1) ++ [.sign (.node tag line cs) ((cs[0]?.map calledMethod).getD [])]
    | .known .args => cs.flatMap parameterMoves
    | .known .opAsgn => compoundMoves line cs
    | .known .opAsgnOr | .known .opAsgnAnd => conditionalMoves line cs
    | .known .masgn => multipleMoves cs
    | .known .vcall | .known .ivar | .known .self | .known .zsuper => ownMoves tag line cs
    | _ => ownMoves tag line cs ++ visits cs

/-- The kind of the scope that a tree opens. -/
def scopeKind? : Tree → Option ScopeKind
  | .node (.known .moduleDef) _ _ => some .moduleBody
  | .node (.known .classDef) _ _ => some .classBody
  | .node (.known .defn) _ _ => some .method
  | .node (.known .defs) _ _ => some .singletonMethod
  | .node (.known .iter) _ _ => some .block
  | .node (.known .if) _ _ => some .conditional
  | .node (.known .yield) _ _ => some .yieldCall
  | _ => none

/-- The trees that are walked in the scope of a given kind that a tree opens. -/
def bodyOf (kind : ScopeKind) (t : Tree) : List Tree :=
  if hasWalkedBody kind t.children then t.children.drop (bodyStart kind) else []

/-- The trees that are walked in the scope that a tree opens, if it opens one. -/
def within (t : Tree) : List Tree := (t.scopeKind?.map fun kind => t.bodyOf kind).getD []

theorem within_of_scopeKind? {t : Tree} {kind : ScopeKind} (h : t.scopeKind? = some kind) :
    t.within = t.bodyOf kind := by
  rw [within, h, Option.map_some, Option.getD_some]

/-- The outline of the scope of a given kind that a tree opens. -/
def scopeOutline (kind : ScopeKind) (t : Tree) : List Item :=
  notes (entryNotes kind t.children) ++ (t.bodyOf kind).flatMap outline

/-- The scope that a tree opens, as a part of an outline. -/
def ownScope (t : Tree) : List Item :=
  (t.scopeKind?.map fun kind => opened kind t (t.scopeOutline kind)).toList

end Tree

namespace Move

/-- The part of an outline that a move makes. -/
def outline : Move → Outline
  | .note o => [.note o]
  | .sign t method => [Tree.callNote t method]
  | .visit t => t.outline

/-- The trees that the walk goes on to in a move. -/
def trees : Move → List Tree
  | .note _ => []
  | .sign _ _ => []
  | .visit t => [t]

@[simp] theorem outline_note (o : Observation) : (Move.note o).outline = [.note o] := rfl

@[simp] theorem outline_sign (t : Tree) (method : Text) :
    (Move.sign t method).outline = [t.callNote method] := rfl

@[simp] theorem outline_visit (t : Tree) : (Move.visit t).outline = t.outline := rfl

@[simp] theorem trees_note (o : Observation) : (Move.note o).trees = [] := rfl

@[simp] theorem trees_sign (t : Tree) (method : Text) : (Move.sign t method).trees = [] := rfl

@[simp] theorem trees_visit (t : Tree) : (Move.visit t).trees = [t] := rfl

end Move

/-! ## The outline of a tree -/

namespace Trace

/-- The outlines of annotated trees are the outlines of the trees. -/
theorem all_map_annotate (ts : List Tree) :
    all (ts.map (Tree.annotate treeOutline)) = ts.flatMap Tree.outline := by
  rw [all, List.flatMap_map]
  rfl

theorem inside_annotate (t : Tree) :
    inside (t.annotate treeOutline) = t.children.flatMap Tree.outline := by
  rw [inside, Tree.parts_annotate, all_map_annotate]

end Trace

namespace Tree

open CodeSmell.Trace

@[simp] theorem notes_nil : notes [] = [] := rfl

theorem flatMap_outline_visits (ts : List Tree) :
    (visits ts).flatMap Move.outline = ts.flatMap outline := by
  rw [visits, List.flatMap_map]
  rfl

theorem flatMap_outline_note (os : List Observation) :
    (os.map Move.note).flatMap Move.outline = notes os := by
  rw [List.flatMap_map, notes, List.map_eq_flatMap]
  rfl

/-! ### One kind of node after the other -/

theorem callNotes_eq_moves (t : Tree) : t.callNotes = t.callMoves.flatMap Move.outline := by
  simp only [callNotes, callMoves]
  split
  · split <;> rfl
  · rw [List.flatMap_append, flatMap_outline_note]
    rfl

theorem selfCallNotes_eq_moves (t : Tree) :
    t.selfCallNotes = t.selfCallMoves.flatMap Move.outline := by
  simp only [selfCallNotes, selfCallMoves]
  split <;> rfl

theorem target_annotate (t : Tree) :
    target (t.annotate treeOutline) = (targetMoves t).flatMap Move.outline := by
  rw [target, targetMoves, flatMap_outline_visits, tree_annotate, inside_annotate]
  by_cases h : t.hasTag .attrasgn
  · rw [if_pos h, if_pos h]
  · rw [if_neg h, if_neg h, List.flatMap_singleton]
    rfl

theorem parameter_annotate (t : Tree) :
    Trace.parameter (t.annotate treeOutline) = (parameterMoves t).flatMap Move.outline := by
  rw [Trace.parameter, tree_annotate, inside_annotate]
  unfold parameterMoves
  split <;> simp [flatMap_outline_visits, children, outline]

theorem parameters_annotate (cs : List Tree) :
    (cs.map (annotate treeOutline)).flatMap Trace.parameter
      = (cs.flatMap parameterMoves).flatMap Move.outline := by
  rw [List.flatMap_map, List.flatMap_assoc]
  simp only [parameter_annotate]

theorem compound_annotate (line : Int) (cs : List Tree) :
    compound line (cs.map (annotate treeOutline))
      = (compoundMoves line cs).flatMap Move.outline := by
  have head : (cs.map (annotate treeOutline))[0]?.map Annotated.tree = cs[0]? := by
    cases cs <;> simp
  rw [compound, compoundMoves, head]
  cases cs[0]?.bind (compoundNotes? line) with
  | none => exact (all_map_annotate cs).trans (flatMap_outline_visits cs).symm
  | some os =>
    simp only [List.flatMap_append, flatMap_outline_note, flatMap_outline_visits, ← List.map_drop,
      all_map_annotate]

theorem conditional_annotate (line : Int) (cs : List Tree) :
    Trace.conditional line (cs.map (annotate treeOutline))
      = (conditionalMoves line cs).flatMap Move.outline := by
  rw [Trace.conditional, conditionalMoves, List.getElem?_map, all_map_annotate]
  cases cs[1]? with
  | none => exact (flatMap_outline_visits cs).symm
  | some t =>
    simp only [Option.map_some, tree_annotate, inside_annotate]
    cases conditionalNotes? line t with
    | none => exact (flatMap_outline_visits cs).symm
    | some os =>
      simp only [List.flatMap_append, flatMap_outline_note, flatMap_outline_visits]

theorem multiple_annotate (cs : List Tree) :
    multiple (cs.map (annotate treeOutline)) = (multipleMoves cs).flatMap Move.outline := by
  cases cs with
  | nil => rfl
  | cons left values =>
    rw [List.map_cons, multiple, multipleMoves, List.flatMap_append, flatMap_outline_visits,
      all_map_annotate, targets, parts_annotate, List.flatMap_map, List.flatMap_assoc]
    simp only [target_annotate]

theorem scope_annotate (kind : ScopeKind) (t : Tree) :
    scope kind t (t.children.map (annotate treeOutline)) = opened kind t (t.scopeOutline kind) := by
  simp only [scope, scopeOutline, bodyOf]
  by_cases walked : hasWalkedBody kind t.children
  · rw [if_pos walked, if_pos walked, ← List.map_drop, all_map_annotate]
  · rw [if_neg walked, if_neg walked, List.flatMap_nil]

/-- The outline of a tree is what its moves make, followed by the scope that it opens. -/
theorem outline_eq_moves (t : Tree) : t.outline = t.moves.flatMap Move.outline ++ t.ownScope := by
  rw [outline, value_annotate]
  cases t with
  | atom a => rfl
  | node tag line cs =>
    cases tag with
    | known k =>
      cases k <;>
        simp [moves, ownMoves, ownScope, scopeKind?, ← scope_annotate, treeOutline, children,
          ← List.map_take, all_map_annotate, flatMap_outline_visits, flatMap_outline_note,
          callNotes_eq_moves, selfCallNotes_eq_moves, parameters_annotate, compound_annotate,
          conditional_annotate, multiple_annotate]
    | other word unknown =>
      simp [moves, ownMoves, ownScope, scopeKind?, treeOutline, children, all_map_annotate,
        flatMap_outline_visits]

theorem outline_block (line : Int) (cs : List Tree) :
    (known .block line cs).outline
      = notes [.statements (countStatements cs)] ++ cs.flatMap outline := by
  rw [outline_eq_moves, ← flatMap_outline_visits]
  exact List.append_nil _

/-! ## Variables -/

/-- Whether a tree is a local or an instance variable, or an assignment to one. -/
def isVariable (t : Tree) : Bool :=
  [.lvar, .lasgn, .dvar, .dasgnCurr, .ivar, .iasgn].any fun k => t.hasTag k

/-- Whether a tree assigns to a local or an instance variable. -/
def isAssignment (t : Tree) : Bool := t.hasTag .iasgn || t.hasTag .lasgn

theorem isSome_compoundNotes? (line : Int) (t : Tree) :
    (compoundNotes? line t).isSome = t.isVariable := by
  cases t with
  | atom a => rfl
  | node tag l cs =>
    cases tag with
    | other word unknown => simp [compoundNotes?, isVariable, hasTag]
    | known k => cases k <;> rfl

theorem isSome_conditionalNotes? (line : Int) (t : Tree) :
    (conditionalNotes? line t).isSome = t.isAssignment := by
  cases t with
  | atom a => rfl
  | node tag l cs =>
    cases tag with
    | other word unknown => simp [conditionalNotes?, isAssignment, hasTag]
    | known k => cases k <;> rfl

/-! ## Where the walk goes -/

/-- The trees that the walk goes on to from a tree. -/
def walked (t : Tree) : List Tree := t.moves.flatMap Move.trees ++ t.within

/-- The walk comes from a tree to another. -/
abbrev Reaches : Tree → Tree → Prop := Relation.ReflTransGen fun t u => u ∈ t.walked

theorem flatMap_trees_visits (ts : List Tree) : (visits ts).flatMap Move.trees = ts := by
  rw [visits, List.flatMap_map]
  exact List.flatMap_singleton' ts

/-- Those of the own moves of a node that do more than note something: they sign a call. -/
def signs (tag : Tag) (line : Int) (cs : List Tree) : List Move :=
  match tag with
  | .known .call | .known .attrasgn =>
    if isEmptyAt cs 0 && (argumentsAt cs 2).isEmpty then []
    else [.sign (.node tag line cs) (nameAt cs 1)]
  | .known .fcall =>
    if (argumentsAt cs 1).isEmpty then [] else [.sign (.node tag line cs) (nameAt cs 0)]
  | .known .opAsgn1 => [.sign (.node tag line cs) "[]"]
  | .known .match2 | .known .match3 => [.sign (.node tag line cs) "=~"]
  | _ => []

section Quiet

variable {α : Type} {f : Move → List α}

theorem flatMap_note (quiet : ∀ o, f (.note o) = []) (os : List Observation) :
    (os.map Move.note).flatMap f = [] := by
  rw [List.flatMap_map]
  simp [quiet]

theorem flatMap_callMoves (quiet : ∀ o, f (.note o) = []) (t : Tree) :
    t.callMoves.flatMap f
      = if isEmptyAt t.children 0 && (argumentsAt t.children 2).isEmpty then []
        else f (.sign t (nameAt t.children 1)) := by
  simp only [callMoves]
  cases isEmptyAt t.children 0 with
  | false => simp [flatMap_note quiet]
  | true => cases (argumentsAt t.children 2).isEmpty <;> simp [quiet]

theorem flatMap_selfCallMoves (quiet : ∀ o, f (.note o) = []) (t : Tree) :
    t.selfCallMoves.flatMap f
      = if (argumentsAt t.children 1).isEmpty then [] else f (.sign t (nameAt t.children 0)) := by
  simp only [selfCallMoves]
  cases (argumentsAt t.children 1).isEmpty <;> simp [quiet]

/-- What depends on the moves and not on the notes among them depends on the signed calls. -/
theorem flatMap_ownMoves (quiet : ∀ o, f (.note o) = []) (tag : Tag) (line : Int)
    (cs : List Tree) : (ownMoves tag line cs).flatMap f = (signs tag line cs).flatMap f := by
  cases tag with
  | other word unknown => rfl
  | known k =>
    cases k
    case call | attrasgn =>
      rw [ownMoves, flatMap_callMoves quiet, signs, children]
      split <;> simp
    case fcall =>
      rw [ownMoves, flatMap_selfCallMoves quiet, signs, children]
      split <;> simp
    all_goals simp [ownMoves, signs, flatMap_note quiet, quiet]

end Quiet

theorem flatMap_trees_ownMoves (tag : Tag) (line : Int) (cs : List Tree) :
    (ownMoves tag line cs).flatMap Move.trees = [] := by
  rw [flatMap_ownMoves Move.trees_note, List.flatMap_eq_nil_iff]
  intro m mem
  unfold signs at mem
  grind [Move.trees]

theorem mem_children_of_mem_within {t u : Tree} (h : u ∈ t.within) : u ∈ t.children := by
  cases found : t.scopeKind? with
  | none =>
    rw [within, found] at h
    cases h
  | some kind =>
    rw [within_of_scopeKind? found, bodyOf] at h
    split at h
    · exact List.mem_of_mem_drop h
    · cases h

theorem below_of_mem_targetMoves {t u : Tree} (h : u ∈ (targetMoves t).flatMap Move.trees) :
    u = t ∨ Below u t := by
  rw [targetMoves, flatMap_trees_visits] at h
  split at h
  · exact Or.inr (.single h)
  · exact Or.inl (List.mem_singleton.1 h)

theorem below_of_mem_parameterMoves {t u : Tree}
    (h : u ∈ (parameterMoves t).flatMap Move.trees) : u = t ∨ Below u t := by
  unfold parameterMoves at h
  split at h
  · cases h
  · rw [List.flatMap_cons, flatMap_trees_visits] at h
    exact Or.inr (.single h)
  · rw [List.flatMap_cons, flatMap_trees_visits] at h
    exact Or.inr (.single h)
  · rw [List.flatMap_singleton] at h
    exact Or.inl (List.mem_singleton.1 h)

theorem mem_of_mem_compoundMoves {line : Int} {cs : List Tree} {u : Tree}
    (h : u ∈ (compoundMoves line cs).flatMap Move.trees) : u ∈ cs := by
  unfold compoundMoves at h
  split at h
  · rw [List.flatMap_append, flatMap_note Move.trees_note, flatMap_trees_visits] at h
    exact List.mem_of_mem_drop h
  · rwa [flatMap_trees_visits] at h

theorem below_of_mem_conditionalMoves {tag : Tag} {line : Int} {cs : List Tree} {u : Tree}
    (h : u ∈ (conditionalMoves line cs).flatMap Move.trees) : Below u (.node tag line cs) := by
  unfold conditionalMoves at h
  split at h
  next assignment found =>
    split at h
    · rw [List.flatMap_append, flatMap_note Move.trees_note, flatMap_trees_visits] at h
      have inner : Below u assignment := .single h
      exact inner.tail (List.mem_of_getElem? found)
    · rw [flatMap_trees_visits] at h
      exact below_of_mem tag line h
  next =>
    rw [flatMap_trees_visits] at h
    exact below_of_mem tag line h

theorem below_of_mem_multipleMoves {tag : Tag} {line : Int} {cs : List Tree} {u : Tree}
    (h : u ∈ (multipleMoves cs).flatMap Move.trees) : Below u (.node tag line cs) := by
  cases cs with
  | nil => cases h
  | cons left values =>
    rw [multipleMoves, List.flatMap_append, flatMap_trees_visits, List.flatMap_assoc,
      List.mem_append] at h
    rcases h with h | h
    · obtain ⟨target, below, mem⟩ := List.mem_flatMap.1 h
      have head : Below target (.node tag line (left :: values)) :=
        .tail (.single below) (List.mem_cons_self ..)
      rcases below_of_mem_targetMoves mem with rfl | deeper
      · exact head
      · exact deeper.trans head
    · exact below_of_mem tag line (List.mem_cons_of_mem left h)

/-- The walk goes on to trees below only. -/
theorem below_of_mem_walked {t u : Tree} (h : u ∈ t.walked) : Below u t := by
  rcases List.mem_append.1 h with h | h
  · cases t with
    | atom a => cases h
    | node tag line cs =>
      have plain : u ∈ (ownMoves tag line cs ++ visits cs).flatMap Move.trees → u ∈ cs := by
        rw [List.flatMap_append, flatMap_trees_ownMoves, flatMap_trees_visits]
        exact id
      cases tag with
      | other word unknown => exact below_of_mem _ line (plain h)
      | known k =>
        cases k
        case moduleDef | classDef | defn | defs | «if» | yield => cases h
        case vcall | ivar | self | zsuper => cases h
        case iter =>
          rw [moves, List.flatMap_append, flatMap_trees_visits] at h
          exact below_of_mem _ line (List.mem_of_mem_take (by simpa using h))
        case args =>
          rw [moves, List.flatMap_assoc] at h
          obtain ⟨element, mem, h⟩ := List.mem_flatMap.1 h
          rcases below_of_mem_parameterMoves h with rfl | deeper
          · exact below_of_mem _ line mem
          · exact deeper.tail mem
        case opAsgn => exact below_of_mem _ line (mem_of_mem_compoundMoves h)
        case opAsgnOr | opAsgnAnd => exact below_of_mem_conditionalMoves h
        case masgn => exact below_of_mem_multipleMoves h
        all_goals exact below_of_mem _ line (plain h)
  · exact .single (mem_children_of_mem_within h)

/-- Induction along the walk: what holds of a tree if it holds of all trees that the walk goes on
to from it, holds of every tree. -/
@[elab_as_elim]
theorem walk_induction {motive : Tree → Prop}
    (step : ∀ t : Tree, (∀ u ∈ t.walked, motive u) → motive t) (t : Tree) : motive t :=
  below_induction (fun t ih => step t fun u walked => ih u (below_of_mem_walked walked)) t

/-- The walk stays inside the tree. -/
theorem Reaches.hasPart {t u : Tree} (h : t.Reaches u) : t.HasPart u := by
  induction h with
  | refl => exact .refl
  | tail _ step ih => exact ih.trans (hasPart_of_below (below_of_mem_walked step))

end Tree

end CodeSmell
