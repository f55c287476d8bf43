import CodeSmell.Scope.Outline
import CodeSmell.Smell.Detection
import CodeSmell.Tree.Shape

/-!
# Examining trees

A tree of proper shape is examined scope by scope, in the order in which scopes are completed. In
each scope the smells that are looked for in scopes of its kind are found one after the other, with
the options that the settings give for the scope.
-/

set_option autoImplicit false

namespace CodeSmell

/-- The warnings about a completed scope. -/
def Chain.warnings (settings : Settings) (chain : Chain) : List Warning :=
  match chain with
  | [] => []
  | s :: _ =>
    Smell.all.flatMap fun smell =>
      let o := settings.resolve smell.name chain.names
      if s.kind ∈ smell.kinds ∧ o.enabled then smell.find s o else []

/-- Why a tree cannot be examined. -/
inductive ExamineFault where
  | malformed (m : Malformed)
  | render (f : RenderFault)

/-- The completed scopes of a tree of proper shape, and the outermost scope in the end. -/
def Tree.examineScopes (t : Tree) : Except ExamineFault (List Chain × Chain) := do
  (Tree.validate (some t)).mapError .malformed
  t.scopes.mapError .render

/-- The warnings about completed scopes, all with the given source. -/
def warningsAbout (settings : Settings) (source : Text) (chains : List Chain) : List Warning :=
  chains.flatMap fun c => (c.warnings settings).map fun w => { w with source := source }

/-- Examines a tree and adds the warnings about each scope to a report when the scope is completed.
Yields the report in the end, and why the examination ended early, if it did. A tree of improper
shape is not walked at all. -/
def Tree.examineInto (settings : Settings) (source : Text) (report : List Warning) (t : Tree) :
    List Warning × Option ExamineFault :=
  match Tree.validate (some t) with
  | .error m => (report, some (.malformed m))
  | .ok () =>
    (report ++ warningsAbout settings source t.walk.completed, t.walk.fault.map .render)

/-- The warnings about a tree, all with the given source. -/
def Tree.examine (settings : Settings) (source : Text) (t : Tree) :
    Except ExamineFault (List Warning) :=
  match t.examineInto settings source [] with
  | (warnings, none) => .ok warnings
  | (_, some fault) => .error fault

end CodeSmell
