import CodeSmell.Tree.Basic
import Mathlib.Logic.Relation

/-!
# Parts of trees

A tree is part of another if it is the other or stands anywhere below it. Being properly below is
well founded, so what holds of a tree as soon as it holds of everything below it holds of every tree
(`Tree.below_induction`).
-/

set_option autoImplicit false

namespace CodeSmell

namespace Tree

/-- A tree has another as a part if the other is the tree itself or stands below it. -/
abbrev HasPart : Tree → Tree → Prop := Relation.ReflTransGen fun t u => u ∈ t.children

/-- A tree stands properly below another. -/
abbrev Below : Tree → Tree → Prop := Relation.TransGen fun u t => u ∈ t.children

theorem below_of_mem {u : Tree} {cs : List Tree} (tag : Tag) (line : Int) (h : u ∈ cs) :
    Below u (.node tag line cs) :=
  Relation.TransGen.single h

theorem sizeOf_lt_of_mem_children {u t : Tree} (h : u ∈ t.children) : sizeOf u < sizeOf t := by
  cases t with
  | atom a => cases h
  | node tag line cs =>
    have smaller : sizeOf u < sizeOf cs := List.sizeOf_lt_of_mem h
    simp only [node.sizeOf_spec]
    omega

/-- What stands below a tree is smaller. -/
theorem sizeOf_lt_of_below {u t : Tree} (h : Below u t) : sizeOf u < sizeOf t := by
  induction h with
  | single mem => exact sizeOf_lt_of_mem_children mem
  | tail _ mem ih => exact Nat.lt_trans ih (sizeOf_lt_of_mem_children mem)

/-- Induction on everything below a tree. -/
@[elab_as_elim]
theorem below_induction {motive : Tree → Prop}
    (step : ∀ t : Tree, (∀ u, Below u t → motive u) → motive t) (t : Tree) : motive t :=
  step t fun u _ => below_induction step u
termination_by sizeOf t
decreasing_by exact sizeOf_lt_of_below ‹_›

/-- What holds of a tree exactly if something holds of the tree itself and it holds of the trees one
step further, holds exactly if that something holds of all trees that are reached in such steps. -/
theorem iff_forall_of_step {r : Tree → Tree → Prop} (below : ∀ {t u}, r t u → Below u t)
    {p q : Tree → Prop} (step : ∀ t, q t ↔ p t ∧ ∀ u, r t u → q u) (t : Tree) :
    q t ↔ ∀ u, Relation.ReflTransGen r t u → p u := by
  induction t using below_induction with
  | step t ih =>
    rw [step]
    constructor
    · rintro ⟨here, next⟩ u reaches
      rcases Relation.ReflTransGen.cases_head reaches with rfl | ⟨v, related, reaches⟩
      · exact here
      · exact (ih v (below related)).1 (next v related) u reaches
    · intro all
      exact ⟨all t .refl, fun u related => (ih u (below related)).2 fun v reaches =>
        all v (.head related reaches)⟩

theorem hasPart_of_below {u t : Tree} (h : Below u t) : t.HasPart u := by
  induction h with
  | single mem => exact .single mem
  | tail _ mem ih => exact .head mem ih

theorem hasPart_node_iff {tag : Tag} {line : Int} {cs : List Tree} {u : Tree} :
    (node tag line cs).HasPart u ↔ u = .node tag line cs ∨ ∃ c ∈ cs, c.HasPart u :=
  Relation.ReflTransGen.cases_head_iff.trans (or_congr_left eq_comm)

theorem hasPart_atom_iff {a : Atom} {u : Tree} : (atom a).HasPart u ↔ u = .atom a := by
  refine Relation.ReflTransGen.cases_head_iff.trans ?_
  simp [children, eq_comm]

end Tree

end CodeSmell
