import CodeSmell.Tree.Basic

/-!
# Annotated trees

Many properties of a tree follow from the tree itself and the same property of its parts, and of the
parts of these. `Tree.annotate` computes such a property for a tree and everything below it from the
rule for a single tree, so that the rule itself needs no recursion.
-/

set_option autoImplicit false

namespace CodeSmell

/-- A tree with a value for itself and for everything below it. -/
inductive Annotated (α : Type) where
  | mk (tree : Tree) (value : α) (parts : List (Annotated α))

namespace Annotated

variable {α : Type}

/-- The tree itself. -/
def tree : Annotated α → Tree
  | mk t _ _ => t

/-- The value of the tree. -/
def value : Annotated α → α
  | mk _ v _ => v

/-- The annotated children. -/
def parts : Annotated α → List (Annotated α)
  | mk _ _ ps => ps

end Annotated

namespace Tree

variable {α : Type}

mutual

/-- Annotates a tree by a rule that gives the value of a tree from the tree and its annotated
children. -/
def annotate (rule : Tree → List (Annotated α) → α) : Tree → Annotated α
  | .atom a => .mk (.atom a) (rule (.atom a) []) []
  | .node tag line cs =>
    let parts := annotateAll rule cs
    .mk (.node tag line cs) (rule (.node tag line cs) parts) parts

/-- Annotates several trees. -/
def annotateAll (rule : Tree → List (Annotated α) → α) : List Tree → List (Annotated α)
  | [] => []
  | t :: ts => annotate rule t :: annotateAll rule ts

end

/-- Several trees are annotated one by one. -/
theorem annotateAll_eq_map (rule : Tree → List (Annotated α) → α) (ts : List Tree) :
    annotateAll rule ts = ts.map (annotate rule) := by
  induction ts with
  | nil => rfl
  | cons t ts ih => simp [annotateAll, ih]

/-- The value of a tree is that of the rule at the annotated children. -/
theorem value_annotate (rule : Tree → List (Annotated α) → α) (t : Tree) :
    (t.annotate rule).value = rule t (t.children.map (annotate rule)) := by
  cases t with
  | atom a => rfl
  | node tag line cs => simp [annotate, Annotated.value, children, annotateAll_eq_map]

/-- The parts of an annotated tree are its annotated children. -/
theorem parts_annotate (rule : Tree → List (Annotated α) → α) (t : Tree) :
    (t.annotate rule).parts = t.children.map (annotate rule) := by
  cases t with
  | atom a => rfl
  | node tag line cs => simp [annotate, Annotated.parts, children, annotateAll_eq_map]

/-- Annotating keeps the tree. -/
@[simp] theorem tree_annotate (rule : Tree → List (Annotated α) → α) (t : Tree) :
    (t.annotate rule).tree = t := by
  cases t <;> rfl

end Tree

end CodeSmell
