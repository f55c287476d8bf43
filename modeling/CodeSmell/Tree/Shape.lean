import CodeSmell.Tree.Basic

/-!
# The shape of trees

Nodes that open scopes or make calls have slots that must be filled. `Tree.defect?` is the rule for
a single node, and `Tree.malformed?` finds the first node that breaks it, outer nodes before inner
ones and left before right. A tree is examined only when there is none.
-/

set_option autoImplicit false

namespace CodeSmell

/-- What is wrong with a node. -/
inductive Defect where
  | root
  | moduleName
  | classSlots
  | className
  | methodSlots
  | singletonSlots
  | blockSlots
  | callName
deriving DecidableEq, Repr

/-- The wording of a defect. -/
def Defect.message : Defect → String
  | .root => "missing root node"
  | .moduleName => "missing module name"
  | .classSlots => "missing class name or superclass slot"
  | .className => "invalid class name"
  | .methodSlots => "missing method name or body"
  | .singletonSlots => "missing receiver, method name or body"
  | .blockSlots => "missing block call or parameter slot"
  | .callName => "missing method name"

/-- A defective node: the text of its tag, its line and its defect. -/
structure Malformed where
  tag : Text
  line : Int
  defect : Defect
deriving DecidableEq, Repr

/-- The wording of a defective node. -/
def Malformed.message (m : Malformed) : String :=
  s!"malformed syntax tree: {m.tag.shown} node at line {m.line}: {m.defect.message}"

namespace Tree

/-- Whether a tree can name a module or a class: a symbol that is not empty, or a constant path. -/
def isScopeName : Tree → Bool
  | .atom (.sym name) => name ≠ ""
  | .node (.known .const) _ _ => true
  | .node (.known .colon2) _ _ => true
  | _ => false

/-- The defect of a node with a given tag and children, its children's own defects aside. -/
def defect? (tag : Tag) (cs : List Tree) : Option Defect :=
  match tag with
  | .known .moduleDef => if (cs[0]?).any isScopeName then none else some .moduleName
  | .known .classDef =>
    if cs.length < 2 then some .classSlots
    else if (cs[0]?).any isScopeName then none else some .className
  | .known .defn => if cs.length < 2 ∨ nameAt cs 0 = [] then some .methodSlots else none
  | .known .defs =>
    if cs.length < 3 ∨ (nodeAt? cs 0).isNone ∨ nameAt cs 1 = [] then some .singletonSlots else none
  | .known .iter => if cs.length < 2 ∨ (nodeAt? cs 0).isNone then some .blockSlots else none
  | .known .call | .known .attrasgn => if nameAt cs 1 = [] then some .callName else none
  | .known .fcall | .known .vcall => if nameAt cs 0 = [] then some .callName else none
  | _ => none

mutual

/-- The first defective node of a tree. -/
def malformed? : Tree → Option Malformed
  | .node tag line cs =>
    match defect? tag cs with
    | some defect => some ⟨tag.name, line, defect⟩
    | none => malformedAmong? cs
  | .atom _ => none

/-- The first defective node of several trees. -/
def malformedAmong? : List Tree → Option Malformed
  | [] => none
  | t :: ts => (malformed? t).or (malformedAmong? ts)

end

/-- Checks a tree that may be missing altogether. -/
def validate : Option Tree → Except Malformed Unit
  | none => .error ⟨"", 0, .root⟩
  | some t =>
    match t.malformed? with
    | some m => .error m
    | none => .ok ()

end Tree

end CodeSmell
