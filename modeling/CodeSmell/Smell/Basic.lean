import CodeSmell.Scope.Basic

/-!
# Smells

The four smells that are looked for, how severe each is, and the kinds of scopes in which it is
looked for.
-/

set_option autoImplicit false

namespace CodeSmell

/-- How severe a warning is, from zero upwards. -/
structure Severity where
  level : Int
deriving DecidableEq, Repr

namespace Severity

def low : Severity := ⟨0⟩

def medium : Severity := ⟨1⟩

def high : Severity := ⟨2⟩

def critical : Severity := ⟨3⟩

/-- The name of a severity. -/
def name (s : Severity) : String :=
  if s = low then "LOW"
  else if s = medium then "MEDIUM"
  else if s = high then "HIGH"
  else if s = critical then "CRITICAL"
  else "UNKNOWN"

end Severity

/-- A design smell. -/
inductive Smell where
  | duplicateMethodCall
  | featureEnvy
  | instanceVariableAssumption
  | tooManyInstanceVariables
deriving DecidableEq, Repr

namespace Smell

/-- The name of a smell. -/
def name : Smell → String
  | .duplicateMethodCall => "DuplicateMethodCall"
  | .featureEnvy => "FeatureEnvy"
  | .instanceVariableAssumption => "InstanceVariableAssumption"
  | .tooManyInstanceVariables => "TooManyInstanceVariables"

/-- Every smell, in the order in which they are looked for. -/
def all : List Smell :=
  [.duplicateMethodCall, .featureEnvy, .instanceVariableAssumption, .tooManyInstanceVariables]

/-- The smell with a given name. -/
def ofName? (name : Text) : Option Smell := all.find? fun s => Text.ofString s.name = name

/-- The severity of a smell. -/
def severity : Smell → Severity
  | .featureEnvy | .tooManyInstanceVariables => .medium
  | .duplicateMethodCall | .instanceVariableAssumption => .low

/-- The kinds of scopes in which a smell is looked for. -/
def kinds : Smell → List ScopeKind
  | .duplicateMethodCall | .featureEnvy => [.method, .singletonMethod]
  | .instanceVariableAssumption | .tooManyInstanceVariables => [.classBody, .moduleBody]

end Smell

/-- The severity that goes with the name of a smell; unknown smells are of low severity. -/
def severityOf (smell : Text) : Severity :=
  match Smell.ofName? smell with
  | some s => s.severity
  | none => .low

end CodeSmell
