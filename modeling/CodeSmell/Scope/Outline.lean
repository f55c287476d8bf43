import CodeSmell.Scope.Basic

/-!
# Outlines

The outline of a tree keeps what matters to scopes: the observations in the order in which the walk
meets them, and the scopes with their own outlines. Where something has to be read as text and has
none, the outline holds a fault. Running an outline inside a chain of scopes records the
observations and hands out each scope, with the scopes around it, at the moment it is completed. A
fault ends the run: scopes that are open then are never completed.
-/

set_option autoImplicit false

namespace CodeSmell

/-- A part of an outline. -/
inductive Item where
  | note (o : Observation)
  | scope (o : Opening) (body : List Item)
  /-- A place where the walk cannot go on. -/
  | fault (f : RenderFault)

/-- The outline of a tree. -/
abbrev Outline := List Item

namespace Tree

/-! ## Observations at single nodes -/

/-- The use of a local variable as a receiver. Making an object is no use. -/
def receiverNotes (receiver : Option Tree) (method : Text) (line : Int) : List Observation :=
  match receiver with
  | some (.node (.known .lvar) _ cs) | some (.node (.known .dvar) _ cs)
  | some (.node (.known .lasgn) _ cs) =>
    if method = "new" then [] else [.reference (nameAt cs 0) line]
  | _ => []

/-- The part of an outline in which several things are noted. -/
def notes (os : List Observation) : List Item := os.map .note

/-- The note of a call by its text. -/
def callNote (t : Tree) (method : Text) : Item :=
  match t.render with
  | .ok signature => .note (.call ⟨signature, method, t.line⟩)
  | .error f => .fault f

/-- The arguments in a slot. -/
def argumentsAt (slots : List Tree) (i : Nat) : List Tree := (slots[i]?.map arguments).getD []

/-- The notes of a call with a receiver slot. Without a receiver the call depends on the object
itself, and without arguments as well it is not counted as a call. -/
def callNotes (t : Tree) : List Item :=
  let cs := t.children
  let method := nameAt cs 1
  if isEmptyAt cs 0 then
    if (argumentsAt cs 2).isEmpty then [.note .dependsOnSelf]
    else [.note .dependsOnSelf, callNote t method]
  else notes (receiverNotes cs[0]? method t.line) ++ [callNote t method]

/-- The notes of a call on the object itself; without arguments it is not counted as a call. -/
def selfCallNotes (t : Tree) : List Item :=
  let cs := t.children
  if (argumentsAt cs 1).isEmpty then [.note .useOfSelf]
  else [.note .useOfSelf, callNote t (nameAt cs 0)]

/-- The method that the call of a block calls. -/
def calledMethod : Tree → Text
  | .node (.known .call) _ cs | .node (.known .attrasgn) _ cs => nameAt cs 1
  | .node (.known .fcall) _ cs | .node (.known .vcall) _ cs => nameAt cs 0
  | _ => []

/-- The notes of a compound assignment to a variable, or nothing if the target is no variable. -/
def compoundNotes? (line : Int) : Tree → Option (List Observation)
  | .node (.known .lvar) _ cs | .node (.known .lasgn) _ cs | .node (.known .dvar) _ cs
  | .node (.known .dasgnCurr) _ cs => some [.local (nameAt cs 0), .reference (nameAt cs 0) line]
  | .node (.known .ivar) _ cs | .node (.known .iasgn) _ cs =>
    some [.instanceVariable (nameAt cs 0) .read line, .instanceVariable (nameAt cs 0) .write line,
      .dependsOnSelf]
  | _ => none

/-- The notes of an assignment that happens only under a condition, or nothing if what is assigned to
is no variable. -/
def conditionalNotes? (line : Int) : Tree → Option (List Observation)
  | .node (.known .iasgn) _ cs =>
    some [.instanceVariable (nameAt cs 0) .lazyWrite line, .dependsOnSelf]
  | .node (.known .lasgn) _ cs => some [.local (nameAt cs 0)]
  | _ => none

/-- The name of a parameter without the marks of rest and block parameters. -/
def parameterName (a : Atom) : Text :=
  a.text.dropWhile fun b => b == '*'.toUInt8 || b == '&'.toUInt8

/-- The count of the statements of a method. A body that is a single block counts for itself. -/
def methodNotes (body : List Tree) : List Observation :=
  match body with
  | [.node (.known .scope) _ _] | [.node (.known .block) _ _] => []
  | _ => [.statements (countStatements body)]

/-- The slot from which on the children of a node belong to the scope that it opens. -/
def bodyStart : ScopeKind → Nat
  | .moduleBody | .method | .block => 1
  | .classBody | .singletonMethod => 2
  | .root | .conditional | .yieldCall => 0

/-- Whether the children of a node that opens a scope are walked at all: those of a struct are
not. -/
def hasWalkedBody (kind : ScopeKind) (cs : List Tree) : Bool :=
  kind != .classBody || !hasStructTemplate cs

/-- What is noted for a scope before its body is walked. -/
def entryNotes (kind : ScopeKind) (cs : List Tree) : List Observation :=
  match kind with
  | .method | .singletonMethod => methodNotes (cs.drop (bodyStart kind))
  | _ => []

/-- The scope that a node opens, with its outline. -/
def opened (kind : ScopeKind) (t : Tree) (outline : List Item) : Item :=
  match opening kind t with
  | .ok o => .scope o outline
  | .error f => .fault f

end Tree

/-! ## The walk -/

/-- A tree together with its outline and those of everything below it. -/
abbrev Trace := Annotated Outline

namespace Trace

/-- The outlines of several trees, one after the other. -/
def all (parts : List Trace) : Outline := parts.flatMap Annotated.value

/-- The outline of the children of a tree, without that of the tree itself. -/
def inside (t : Trace) : Outline := all t.parts

/-- The outline of a target of a multiple assignment: writing an attribute is no call there. -/
def target (t : Trace) : Outline := if t.tree.hasTag .attrasgn then t.inside else t.value

/-- The outline of the targets of a multiple assignment. -/
def targets (t : Trace) : Outline := t.parts.flatMap target

/-- The outline of an element of a parameter list: atoms and assignments name parameters. -/
def parameter (t : Trace) : Outline :=
  match t.tree with
  | .atom a => [.note (.parameter (Tree.parameterName a))]
  | .node (.known .lasgn) _ cs | .node (.known .dasgnCurr) _ cs =>
    .note (.parameter (Tree.nameAt cs 0)) :: t.inside
  | .node _ _ _ => t.value

/-- The outline of a compound assignment. A variable that is its target is noted and not walked. -/
def compound (line : Int) (parts : List Trace) : Outline :=
  match (parts[0]?.map Annotated.tree).bind (Tree.compoundNotes? line) with
  | some os => Tree.notes os ++ all (parts.drop 1)
  | none => all parts

/-- The outline of an assignment that happens only under a condition. To ask for the value of the
variable is no read of it. -/
def conditional (line : Int) (parts : List Trace) : Outline :=
  match parts[1]? with
  | some assignment =>
    match Tree.conditionalNotes? line assignment.tree with
    | some os => Tree.notes os ++ assignment.inside
    | none => all parts
  | none => all parts

/-- The outline of a multiple assignment. -/
def multiple : List Trace → Outline
  | [] => []
  | left :: values => left.targets ++ all values

/-- The outline of a node that opens a scope of a given kind. -/
def scope (kind : ScopeKind) (t : Tree) (parts : List Trace) : Item :=
  let cs := t.children
  let body := if Tree.hasWalkedBody kind cs then all (parts.drop (Tree.bodyStart kind)) else []
  Tree.opened kind t (Tree.notes (Tree.entryNotes kind cs) ++ body)

end Trace

open CodeSmell.Tree CodeSmell.Trace

/-- The outline of a tree, given those of its parts. -/
def treeOutline (t : Tree) (parts : List Trace) : Outline :=
  match t with
  | .atom _ => []
  | .node tag line cs =>
    match tag with
    | .known .moduleDef => [scope .moduleBody t parts]
    | .known .classDef => [scope .classBody t parts]
    | .known .defn => [scope .method t parts]
    | .known .defs => [scope .singletonMethod t parts]
    | .known .iter =>
      all (parts.take 1)
        ++ [callNote t ((cs[0]?.map calledMethod).getD []), scope .block t parts]
    | .known .if => [scope .conditional t parts]
    | .known .yield => [scope .yieldCall t parts]
    | .known .args => parts.flatMap Trace.parameter
    | .known .dasgnCurr => .note (.parameter (nameAt cs 0)) :: all parts
    | .known .block => .note (.statements (countStatements cs)) :: all parts
    | .known .call | .known .attrasgn => callNotes t ++ all parts
    | .known .fcall => selfCallNotes t ++ all parts
    | .known .vcall => [.note .useOfSelf]
    | .known .opAsgn1 => notes (receiverNotes cs[0]? "[]" line) ++ callNote t "[]" :: all parts
    | .known .opAsgn => compound line parts
    | .known .opAsgnOr | .known .opAsgnAnd => Trace.conditional line parts
    | .known .match2 => callNote t "=~" :: all parts
    | .known .match3 => notes (receiverNotes cs[1]? "=~" line) ++ callNote t "=~" :: all parts
    | .known .masgn => multiple parts
    | .known .ivar => [.note (.instanceVariable (nameAt cs 0) .read line), .note .dependsOnSelf]
    | .known .iasgn =>
      .note (.instanceVariable (nameAt cs 0) .write line) :: .note .dependsOnSelf :: all parts
    | .known .lasgn => .note (.local (nameAt cs 0)) :: all parts
    | .known .self | .known .zsuper => [.note .dependsOnSelf]
    | .known .super => .note .dependsOnSelf :: all parts
    | _ => all parts

/-- The outline of a tree. -/
def Tree.outline (t : Tree) : Outline := (t.annotate treeOutline).value

/-! ## Running an outline -/

/-- How far a run has come: the chain with all that was noted, each completed scope with those
around it, and the fault that has ended the run, if one has. -/
structure Progress where
  chain : Chain
  completed : List Chain := []
  fault : Option RenderFault := none

namespace Progress

/-- Goes on from where a run has come to, unless a fault has ended it. -/
def andThen (p : Progress) (next : Chain → Progress) : Progress :=
  match p.fault with
  | some _ => p
  | none =>
    let q := next p.chain
    { q with completed := p.completed ++ q.completed }

/-- Leaves the innermost scope, which is completed unless a fault has ended the run. -/
def leave (p : Progress) : Progress :=
  match p.fault with
  | some _ => { p with chain := p.chain.tail }
  | none => { p with chain := p.chain.tail, completed := p.completed ++ [p.chain] }

end Progress

namespace Item

mutual

/-- Runs a part of an outline inside a chain of scopes. -/
def run : Item → Chain → Progress
  | .note o, chain => { chain := chain.record o }
  | .scope o body, chain => (runAll body (o.scopeIn chain :: chain)).leave
  | .fault f, chain => { chain := chain, fault := some f }

/-- Runs the parts of an outline one after the other. -/
def runAll : List Item → Chain → Progress
  | [], chain => { chain := chain }
  | item :: rest, chain => (item.run chain).andThen (runAll rest)

end

end Item

/-- Runs the outline of a tree inside the outermost scope. -/
def Tree.walk (t : Tree) : Progress := Item.runAll t.outline [Scope.root]

/-- The chains of the scopes of a tree in order of completion, and the outermost scope in the
end. -/
def Tree.scopes (t : Tree) : Except RenderFault (List Chain × Chain) :=
  match t.walk.fault with
  | some f => .error f
  | none => .ok (t.walk.completed, t.walk.chain)

end CodeSmell
