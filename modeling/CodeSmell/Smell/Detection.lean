import CodeSmell.Settings.AllowList
import CodeSmell.Smell.Warning

/-!
# Finding smells

Each smell is found from what was noted for a single scope. Calls are repeated when the same
signature occurs more often than allowed. A method envies another object when it uses that object
more than its own. A class assumes a variable that it reads and never sets, and has too many
variables when their number exceeds the limit.
-/

set_option autoImplicit false

namespace CodeSmell

/-- A warning about a smell in a scope. -/
def Scope.warning (s : Scope) (smell : Smell) (lines : List Int) (message : Text)
    (details : List (String × Datum)) : Warning :=
  { smell := smell.name, severity := smell.severity, context := s.name, lines := some lines
    message := message, details := details }

/-- The number of equal calls that is allowed: at least one. -/
def SmellOptions.callLimit (o : SmellOptions) : Int := max o.maxAllowedCalls 1

namespace Facts

/-- The lines of the calls by signature. Making an object is never counted. -/
def callGroups (f : Facts) : Groups Text Int :=
  Groups.collect Call.signature Call.line (f.calls.filter fun c => c.method ≠ "new")

end Facts

namespace InstanceVariables

/-- Whether some use of a variable is of a given sort. -/
def isUsed (uses : List (Access × Int)) (access : Access) : Bool := uses.any fun u => u.1 = access

/-- The variables that are read and never set, not even lazily. -/
def assumed (vars : InstanceVariables) : List Text :=
  (vars.filter fun v =>
    isUsed v.2 .read && !isUsed v.2 .write && !isUsed v.2 .lazyWrite).map Prod.fst

/-- The variables that are state of the object: read, or set other than lazily. -/
def held (vars : InstanceVariables) : List Text :=
  (vars.filter fun v => isUsed v.2 .read || isUsed v.2 .write).map Prod.fst

end InstanceVariables

namespace Scope

/-- Calls that are repeated more often than allowed. -/
def duplicateCalls (s : Scope) (o : SmellOptions) : List Warning :=
  (s.facts.callGroups.filter fun g => o.callLimit < g.2.length && !o.allows g.1).map fun g =>
    s.warning .duplicateMethodCall g.2
      ("calls " ++ g.1 ++ " " ++ Text.ofInt g.2.length ++ " times")
      [("count", .int g.2.length), ("name", .text g.1)]

/-- The least and the greatest of some lines. -/
def span : List Int → List Int
  | [] => []
  | line :: lines => [lines.foldl min line, lines.foldl max line]

/-- Objects that are used more than the scope's own. A scope that never uses its own object is left
alone. -/
def envies (s : Scope) : List Warning :=
  let refs := s.facts.references
  if s.facts.selfAffinity = 0 ∨ refs.highest ≤ s.facts.selfAffinity then []
  else refs.mostPopular.map fun name =>
    s.warning .featureEnvy (span (refs.get name))
      ("refers to " ++ name ++ " more than self (maybe move it to another class?)")
      [("name", .text name)]

/-- Variables that are read and never set. -/
def assumptions (s : Scope) : List Warning :=
  s.facts.instanceVariables.assumed.map fun name =>
    s.warning .instanceVariableAssumption [s.line]
      ("assumes too much for instance variable " ++ name) [("assumption", .text name)]

/-- More variables than the limit. -/
def tooManyVariables (s : Scope) (o : SmellOptions) : List Warning :=
  let count := s.facts.instanceVariables.held.length
  if count ≤ o.maxInstanceVariables then []
  else [s.warning .tooManyInstanceVariables [s.line]
    ("has at least " ++ Text.ofInt count ++ " instance variables") [("count", .int count)]]

end Scope

/-- Looks for a smell in a scope. -/
def Smell.find (smell : Smell) (s : Scope) (o : SmellOptions) : List Warning :=
  match smell with
  | .duplicateMethodCall => s.duplicateCalls o
  | .featureEnvy => s.envies
  | .instanceVariableAssumption => s.assumptions
  | .tooManyInstanceVariables => s.tooManyVariables o

end CodeSmell
