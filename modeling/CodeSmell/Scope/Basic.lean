import CodeSmell.Number.Integer
import CodeSmell.Scope.Facts
import CodeSmell.Tree.Rendering

/-!
# Scopes

Modules, classes, methods, blocks, conditionals and yields open scopes. A scope is always seen with
the scopes around it: a `Chain` lists it first and the outermost scope last.

An observation made in a scope is noted for that scope and rolls up. A block, conditional or yield
is transparent: what is observed in it counts for the scope around it as well. Parameters, local
variables and statements never roll up. An instance variable belongs to every scope up to the class
or module around it, provided that a method lies in between; it stops at a singleton method.
-/

set_option autoImplicit false

namespace CodeSmell

/-- What opened a scope. -/
inductive ScopeKind where
  | root
  | moduleBody
  | classBody
  | method
  | singletonMethod
  | block
  | conditional
  | yieldCall
deriving DecidableEq, Repr

namespace ScopeKind

/-- The name of a kind. -/
def name : ScopeKind → String
  | .root => "root"
  | .moduleBody => "module"
  | .classBody => "class"
  | .method => "method"
  | .singletonMethod => "singleton_method"
  | .block => "block"
  | .conditional => "conditional"
  | .yieldCall => "yield_call"

/-- Whether observations roll up to the scope around. -/
def isTransparent : ScopeKind → Bool
  | .block | .conditional | .yieldCall => true
  | _ => false

/-- Whether a scope names what is nested in it. -/
def isNamespace : ScopeKind → Bool
  | .moduleBody | .classBody => true
  | _ => false

end ScopeKind

/-- A scope: its kind, its qualified name, its line, the node that opened it, whether it is a class
made from a struct template, and what was noted for it. -/
structure Scope where
  kind : ScopeKind
  name : Text
  line : Int := 0
  node : Option Tree := none
  structLike : Bool := false
  facts : Facts := {}

/-- A scope followed by the scopes around it. -/
abbrev Chain := List Scope

/-- The outermost scope. -/
def Scope.root : Scope := { kind := .root, name := [] }

namespace Facts

/-- Adds a name to a list of distinct names; an empty name is no name. -/
def withName (name : Text) (names : List Text) : List Text :=
  if name = [] ∨ name ∈ names then names else names ++ [name]

/-- Notes an observation. -/
def note (f : Facts) : Observation → Facts
  | .call c => { f with calls := f.calls ++ [c] }
  | .reference name line => { f with references := f.references.add name line }
  | .useOfSelf => { f with selfUsage := f.selfUsage + 1 }
  | .dependsOnSelf => { f with dependsOnSelf := f.dependsOnSelf + 1 }
  | .parameter name => { f with parameters := withName name f.parameters }
  | .local name => { f with locals := withName name f.locals }
  | .statements count => { f with statements := wrapInt64 (f.statements + count) }
  | .instanceVariable name access line =>
    { f with instanceVariables := f.instanceVariables.add name (access, line) }

end Facts

/-- Notes an observation for a scope. -/
def Scope.note (s : Scope) (o : Observation) : Scope := { s with facts := s.facts.note o }

namespace Chain

/-- Notes an observation for a scope and, through transparent scopes, for those around it. -/
def rollUp (o : Observation) : Chain → Chain
  | [] => []
  | s :: outer => s.note o :: if s.kind.isTransparent then rollUp o outer else outer

/-- Notes the use of an instance variable for a scope and those around it, up to the class, module
or singleton method that owns it. `inMethod` says whether a method has been left on the way. -/
def rollUpVariable (o : Observation) (inMethod : Bool) : Chain → Chain
  | [] => []
  | s :: outer =>
    match s.kind with
    | .root | .moduleBody | .classBody => (if inMethod then s.note o else s) :: outer
    | .singletonMethod => s.note o :: outer
    | .method => s.note o :: rollUpVariable o true outer
    | .block | .conditional | .yieldCall => s.note o :: rollUpVariable o inMethod outer

/-- Records an observation made in the innermost scope. -/
def record (chain : Chain) (o : Observation) : Chain :=
  match o with
  | .call _ | .reference _ _ | .useOfSelf | .dependsOnSelf => rollUp o chain
  | .instanceVariable _ _ _ => rollUpVariable o false chain
  | .parameter _ | .local _ | .statements _ =>
    match chain with
    | [] => []
    | s :: outer => s.note o :: outer

/-- The qualified name of the nearest module or class, or nothing. -/
def namespaceName (chain : Chain) : Text :=
  match chain.find? fun s => s.kind.isNamespace with
  | some s => s.name
  | none => []

/-- The names of the scopes, without empty ones and without repetitions of the name before. -/
def namesAfter (last : Option Text) : Chain → List Text
  | [] => []
  | s :: outer =>
    if s.name = [] ∨ last = some s.name then namesAfter last outer
    else s.name :: namesAfter (some s.name) outer

/-- The qualified names of a scope and those around it, innermost first. -/
def names (chain : Chain) : List Text := namesAfter none chain

end Chain

/-! ## Opening scopes -/

/-- How a new scope is named. -/
inductive Label where
  /-- By a name behind the name of the nearest module or class. -/
  | nested (separator : String) (name : Text)
  /-- By a name behind that of a given owner. -/
  | owned (owner : Text) (separator : String) (name : Text)
  /-- By the name of the scope around it. -/
  | inherited

/-- What is known of a scope when it is opened. -/
structure Opening where
  kind : ScopeKind
  label : Label
  node : Tree
  structLike : Bool := false

/-- A name behind the name of its owner; without an owner it stands alone. -/
def qualify (owner : Text) (separator : String) (name : Text) : Text :=
  if owner = [] then name else owner ++ separator ++ name

namespace Opening

/-- The qualified name of a new scope inside others. -/
def nameIn (o : Opening) (outer : Chain) : Text :=
  match o.label with
  | .nested separator name => qualify outer.namespaceName separator name
  | .owned owner separator name => qualify owner separator name
  | .inherited => (outer.head?.map Scope.name).getD []

/-- A new scope inside others. -/
def scopeIn (o : Opening) (outer : Chain) : Scope :=
  { kind := o.kind, name := o.nameIn outer, line := o.node.line, node := some o.node
    structLike := o.structLike }

end Opening

namespace Tree

/-- Whether a tree is the constant `Struct`. -/
def isStructConstant : Tree → Bool
  | .node (.known .const) _ cs => nameAt cs 0 = "Struct"
  | _ => false

/-- Whether a superclass makes a struct: `Struct` itself, `Struct.new` with any arguments, or such a
call with a block. -/
def isStructTemplate : Tree → Bool
  | .node (.known .const) _ cs => nameAt cs 0 = "Struct"
  | .node (.known .call) _ cs => nameAt cs 1 = "new" && (cs[0]?).any isStructConstant
  | .node (.known .iter) _ (t :: _) => isStructTemplate t
  | _ => false

/-- Whether the children of a class make it a struct. -/
def hasStructTemplate (cs : List Tree) : Bool := (cs[1]?).any isStructTemplate

/-- How the scope of a given kind that a node opens is named. -/
def label (kind : ScopeKind) (t : Tree) : Except RenderFault Label :=
  let cs := t.children
  match kind with
  | .moduleBody | .classBody => do return .nested "::" (← renderAt cs 0)
  | .method => .ok (.nested "#" (nameAt cs 0))
  | .singletonMethod =>
    match nodeAt? cs 0 with
    | some receiver =>
      if receiver.hasTag .self then .ok (.nested "." (nameAt cs 1))
      else do return .owned (← receiver.render) "." (nameAt cs 1)
    | none => .ok (.nested "." (nameAt cs 1))
  | .root | .block | .conditional | .yieldCall => .ok .inherited

/-- The opening of a scope of a given kind by a node. -/
def opening (kind : ScopeKind) (t : Tree) : Except RenderFault Opening := do
  return ⟨kind, ← label kind t, t, kind = .classBody && hasStructTemplate t.children⟩

end Tree

end CodeSmell
