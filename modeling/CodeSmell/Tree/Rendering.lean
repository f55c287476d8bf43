import CodeSmell.Text.Blank
import CodeSmell.Text.Quoted
import CodeSmell.Tree.Annotated

/-!
# Trees as source text

A tree reads as compact source text. Equal trees read the same, so the text of a call serves as its
signature. The text of a node depends on its tag and on how its children, and the children of these,
read: `nodeText` is the rule for one node.

One kind of tree has no text: a block whose parameter list is a multiple assignment without a node
in its first slot.
-/

set_option autoImplicit false

namespace CodeSmell

/-- Why a tree has no text. -/
inductive RenderFault where
  /-- A multiple assignment stands for block parameters, but holds no list of them. -/
  | noParameterList
deriving DecidableEq, Repr

/-- The text of a tree, or why there is none. -/
abbrev Rendering := Except RenderFault Text

/-- A tree together with how it and everything below it reads. -/
abbrev Sketch := Annotated Rendering

/-! ## Operators -/

/-- The methods that are written between their receiver and their argument. -/
def binaryOperators : List String :=
  ["+", "-", "*", "/", "%", "**", "==", "!=", "===", "=~", "!~", "<=>", "<", "<=", ">", ">=",
    "<<", ">>", "&", "|", "^"]

/-- Whether a method is written between its receiver and its argument. -/
def isBinaryOperator (method : Text) : Bool :=
  binaryOperators.any fun op => Text.ofString op = method

/-- The methods that are written in front of their receiver, with the sign they are written as. -/
def unaryOperators : List (String × String) := [("-@", "-"), ("+@", "+"), ("!", "!"), ("~", "~")]

/-- The sign of a method that is written in front of its receiver. -/
def unarySign? (method : Text) : Option Text :=
  (unaryOperators.find? fun op => Text.ofString op.1 = method).map fun op => Text.ofString op.2

/-- The attribute that a writer method sets: its name without the final equals sign. Comparisons
and the element writer are no attribute writers. -/
def writtenAttribute? (method : Text) : Option Text :=
  if method.length < 2 || !method.endsWith "="
      || ["==", "!=", "<=", ">=", "===", "[]="].any fun op => Text.ofString op = method then none
  else some method.dropLast

/-- How a call with a receiver is written. -/
inductive CallStyle where
  /-- The operator stands between the receiver and the argument. -/
  | between
  /-- The sign stands in front of the receiver. -/
  | before (sign : Text)
  /-- The arguments stand in brackets behind the receiver. -/
  | element
  /-- All arguments but the last stand in brackets, and the last is assigned. -/
  | elementWriter
  /-- The argument is assigned to an attribute of the receiver. -/
  | writer (attr : Text)
  /-- The method stands behind a point, and its arguments in parentheses. -/
  | plain
deriving DecidableEq

/-- How a call of a method with a number of arguments is written. -/
def CallStyle.ofMethod (method : Text) (arguments : Nat) : CallStyle :=
  if isBinaryOperator method ∧ arguments = 1 then .between
  else match if arguments = 0 then unarySign? method else none with
    | some sign => .before sign
    | none =>
      if method = "[]" then .element
      else if method = "[]=" ∧ 0 < arguments then .elementWriter
      else match if arguments = 1 then writtenAttribute? method else none with
        | some attr => .writer attr
        | none => .plain

/-- Whether a tree reads as two operands around an operator. -/
def Tree.isOperation : Tree → Bool
  | .node (.known .call) _ cs =>
    !Tree.isEmptyAt cs 0 && isBinaryOperator (Tree.nameAt cs 1)
      && (cs[2]?.map fun t => t.arguments.length) == some 1
  | .node (.known .and) _ _ | .node (.known .or) _ _ => true
  | .node (.known .match2) _ _ | .node (.known .match3) _ _ => true
  | _ => false

/-! ## Parts of texts -/

/-- How an atom reads. -/
def Atom.rendered : Atom → Text
  | .nil => "nil"
  | .str value => Text.ofChars (Quoted.encode value)
  | .re source => "/" ++ Text.ofString source ++ "/"
  | a => a.text

namespace Sketch

/-- How the tree of a sketch reads. -/
abbrev text (s : Sketch) : Rendering := s.value

/-- How an operand reads: in parentheses if it is an operation itself. -/
def operand (s : Sketch) : Rendering := do
  let t ← s.text
  return if s.tree.isOperation then "(" ++ t ++ ")" else t

/-- The sketches of the arguments in an argument slot. -/
def arguments (s : Sketch) : List Sketch :=
  match s.tree with
  | .node (.known .arglist) _ _ | .node (.known .array) _ _ => s.parts
  | .node _ _ _ => [s]
  | .atom _ => []

/-- How the target of an assignment reads: a variable by its name alone. -/
def target (s : Sketch) : Rendering :=
  match s.tree with
  | .node (.known .lasgn) _ cs | .node (.known .iasgn) _ cs | .node (.known .dasgnCurr) _ cs
  | .node (.known .lvar) _ cs | .node (.known .ivar) _ cs | .node (.known .dvar) _ cs
  | .node (.known .gvar) _ cs => .ok (Tree.nameAt cs 0)
  | _ => s.text

/-- How the part in a slot reads; a missing part reads as `nil`. -/
def textAt (parts : List Sketch) (i : Nat) : Rendering := (parts[i]?.map text).getD (.ok "nil")

/-- How the operand in a slot reads. -/
def operandAt (parts : List Sketch) (i : Nat) : Rendering :=
  (parts[i]?.map operand).getD (.ok "nil")

/-- How the assignment target in a slot reads. -/
def targetAt (parts : List Sketch) (i : Nat) : Rendering := (parts[i]?.map target).getD (.ok "nil")

/-- The arguments in a slot. -/
def argumentsAt (parts : List Sketch) (i : Nat) : List Sketch := (parts[i]?.map arguments).getD []

/-- The name in a slot. -/
def nameAt (parts : List Sketch) (i : Nat) : Text := Tree.nameAt (parts.map Annotated.tree) i

/-- How several trees read with a separator between them. -/
def joined (separator : String) (parts : List Sketch) : Rendering := do
  return Text.join separator (← parts.mapM text)

/-- How several trees read as a list. -/
def list (parts : List Sketch) : Rendering := joined ", " parts

end Sketch

mutual

/-- How a parameter reads: an assignment by its target, any other node by its children. -/
def Tree.parameter : Tree → Rendering
  | .node (.known .dasgnCurr) _ cs => .ok (Tree.nameAt cs 0)
  | .node (.known .lasgn) _ cs => .ok (Tree.nameAt cs 0)
  | .node (.known .masgn) _ [] => .error .noParameterList
  | .node (.known .masgn) _ (t :: _) =>
    if t.isNode then Tree.parameter t else .error .noParameterList
  | .node _ _ cs => do return Text.join ", " (← Tree.parameters cs)
  | .atom a => .ok a.text

/-- How several parameters read. -/
def Tree.parameters : List Tree → Except RenderFault (List Text)
  | [] => .ok []
  | t :: ts => do return (← Tree.parameter t) :: (← Tree.parameters ts)

end

/-! ## Nodes -/

open Sketch

/-- How a call reads, given its receiver, its method and its arguments. -/
def callText (receiver : Option Sketch) (method : Text) (args : List Sketch) : Rendering :=
  match receiver.filter fun r => !r.tree.isNilAtom with
  | none => withArguments
  | some r =>
    match CallStyle.ofMethod method args.length with
    | .between => do
      return (← r.operand) ++ " " ++ method ++ " " ++ Text.join ", " (← args.mapM operand)
    | .before sign => do return sign ++ (← r.operand)
    | .element => do return (← r.operand) ++ "[" ++ (← list args) ++ "]"
    | .elementWriter => do
      return (← r.text) ++ "[" ++ (← list args.dropLast) ++ "] = "
        ++ (← list args.getLast?.toList)
    | .writer attr => do return (← r.text) ++ "." ++ attr ++ " = " ++ (← list args)
    | .plain => do return (← r.operand) ++ "." ++ (← withArguments)
where
  /-- The method with its arguments in parentheses, if there are any. -/
  withArguments : Rendering :=
    if args.isEmpty then .ok method else do return method ++ "(" ++ (← list args) ++ ")"

/-- How a call with a block reads. -/
def blockText (parts : List Sketch) : Rendering := do
  let call ← textAt parts 0
  return call ++ " \x7b" ++ (← parameters) ++ (← body) ++ " \x7d"
where
  /-- The parameter list between bars, if the second slot holds a node. -/
  parameters : Rendering :=
    match Tree.nodeAt? (parts.map Annotated.tree) 1 with
    | some t => do return " |" ++ (← t.parameter).trim ++ "|"
    | none => .ok []
  /-- The statements of the block, if there are any. -/
  body : Rendering :=
    if (parts.drop 2).isEmpty then .ok [] else do return " " ++ (← joined "; " (parts.drop 2))

/-- How a node reads, given its tag and the sketches of its children. -/
def nodeText (tag : Tag) (parts : List Sketch) : Rendering :=
  match tag with
  | .known .self | .known .nil | .known .true | .known .false => .ok tag.name
  | .known .zsuper => .ok "super"
  | .known .ivar | .known .lvar | .known .dvar | .known .gvar | .known .const | .known .vcall =>
    .ok (nameAt parts 0)
  | .known .lit =>
    match parts[0]?.map Annotated.tree with
    | some (.atom (.sym name)) => .ok (":" ++ Text.ofString name)
    | _ => textAt parts 0
  | .known .str => textAt parts 0
  | .known .colon2 => do return (← textAt parts 0) ++ "::" ++ (← textAt parts 1)
  | .known .call | .known .attrasgn =>
    callText parts[0]? (nameAt parts 1) (argumentsAt parts 2)
  | .known .fcall => callText none (nameAt parts 0) (argumentsAt parts 1)
  | .known .iter => blockText parts
  | .known .opAsgn1 => do
    return (← operandAt parts 0) ++ "[" ++ (← list (argumentsAt parts 1)) ++ "] "
      ++ nameAt parts 2 ++ "= " ++ (← textAt parts 3)
  | .known .opAsgn => do
    return (← targetAt parts 0) ++ " " ++ nameAt parts 1 ++ "= " ++ (← textAt parts 2)
  | .known .opAsgnOr => conditional " ||= "
  | .known .opAsgnAnd => conditional " &&= "
  | .known .match2 => do return (← textAt parts 0) ++ " =~ " ++ (← operandAt parts 1)
  | .known .match3 => do return (← operandAt parts 1) ++ " =~ " ++ (← textAt parts 0)
  | .known .iasgn | .known .lasgn | .known .dasgnCurr =>
    if parts.length < 2 then .ok (nameAt parts 0)
    else do return nameAt parts 0 ++ " = " ++ (← textAt parts 1)
  | .known .masgn => do
    return (← list (argumentsAt parts 0)) ++ " = " ++ (← match parts[1]? with
      | some s => if s.tree.hasTag .array then list s.parts else s.text
      | none => textAt parts 1)
  | .known .array => do return "[" ++ (← list parts) ++ "]"
  | .known .arglist | .known .args => list parts
  | .known .block | .known .scope => joined "; " parts
  | .known .if => do
    let head := "if " ++ (← textAt parts 0) ++ " then " ++ (← textAt parts 1)
    match parts[2]? with
    | some s =>
      if s.tree.isNilAtom || s.tree.hasTag .nil then return head ++ " end"
      else return head ++ " else " ++ (← s.text) ++ " end"
    | none => return head ++ " end"
  | .known .yield | .known .super | .known .return =>
    if parts.isEmpty then .ok tag.name
    else do
      let args := match parts with
        | [s] => if s.tree.hasTag .arglist || s.tree.hasTag .array then s.parts else parts
        | _ => parts
      return tag.name ++ "(" ++ (← list args) ++ ")"
  | .known .not => do return "!" ++ (← operandAt parts 0)
  | .known .and => do return (← operandAt parts 0) ++ " && " ++ (← operandAt parts 1)
  | .known .or => do return (← operandAt parts 0) ++ " || " ++ (← operandAt parts 1)
  | _ => do return "(" ++ Text.join " " (tag.name :: (← parts.mapM text)) ++ ")"
where
  /-- An assignment that happens only under a condition; the assigned value is that of the
  assignment in the second slot. -/
  conditional (operator : String) : Rendering := do
    let value ← match parts[1]? with
      | some s => if s.tree.isNode then textAt s.parts 1 else pure []
      | none => pure []
    return (← targetAt parts 0) ++ operator ++ value

/-- How a tree reads, given the sketches of its children. -/
def treeText (t : Tree) (parts : List Sketch) : Rendering :=
  match t with
  | .atom a => .ok a.rendered
  | .node tag _ _ => nodeText tag parts

namespace Tree

/-- The sketch of a tree. -/
def sketch (t : Tree) : Sketch := t.annotate treeText

/-- How a tree reads. -/
def render (t : Tree) : Rendering := t.sketch.text

/-- How the tree in a slot reads. -/
def renderAt (slots : List Tree) (i : Nat) : Rendering := (slots[i]?.map render).getD (.ok "nil")

end Tree

end CodeSmell
