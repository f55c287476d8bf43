import CodeSmell.Smell.Basic

/-!
# Settings

How smells are looked for and reported. Each smell has options; a scope can override them for itself
and for what is nested in it. Of several scopes around each other the innermost one with an override
for the smell decides, and what its override leaves open comes from the general options.
-/

set_option autoImplicit false

namespace CodeSmell

/-- The options of a smell; each smell reads those it understands. A list that is missing is kept
apart from an empty one. -/
structure SmellOptions where
  enabled : Bool := false
  maxAllowedCalls : Int := 0
  allowCalls : Option (List Text) := none
  maxInstanceVariables : Int := 0
deriving DecidableEq

/-- Options that a scope sets for itself. -/
structure SmellOverride where
  enabled : Option Bool := none
  maxAllowedCalls : Option Int := none
  allowCalls : Option (List Text) := none
  maxInstanceVariables : Option Int := none
deriving DecidableEq

/-- The options of all smells. -/
structure SmellSettings where
  duplicateMethodCall : SmellOptions
  featureEnvy : SmellOptions
  instanceVariableAssumption : SmellOptions
  tooManyInstanceVariables : SmellOptions
deriving DecidableEq

/-- The least scores of the four grades. -/
structure Thresholds where
  excellent : Int := 90
  good : Int := 75
  fair : Int := 50
  poor : Int := 0
deriving DecidableEq

/-- How results are reported. -/
structure OutputSettings where
  format : Text := "console"
  colors : Bool := true
  verbose : Bool := false
  file : Text := []
deriving DecidableEq

/-- Which files are read. The size limit is in units of 1024 bytes. -/
structure FileSettings where
  exclude : Option (List Text) := some ["vendor/**", ".git/**", "node_modules/**"]
  maxSize : Int := 1024
deriving DecidableEq

/-- The overrides of scopes by their names, and of smells by theirs. -/
abbrev Overrides := List (Text × List (Text × SmellOverride))

/-- All settings. -/
structure Settings where
  version : Text := "1.0"
  projectName : Text := []
  thresholds : Thresholds := {}
  maxWorkers : Int := 4
  output : OutputSettings := {}
  smells : SmellSettings := {
    duplicateMethodCall := { enabled := true, maxAllowedCalls := 1, allowCalls := some [] }
    featureEnvy := { enabled := true }
    instanceVariableAssumption := { enabled := true }
    tooManyInstanceVariables := { enabled := true, maxInstanceVariables := 4 } }
  overrides : Overrides := []
  files : FileSettings := {}
deriving DecidableEq

namespace SmellSettings

/-- The options of a smell. -/
def get (s : SmellSettings) : Smell → SmellOptions
  | .duplicateMethodCall => s.duplicateMethodCall
  | .featureEnvy => s.featureEnvy
  | .instanceVariableAssumption => s.instanceVariableAssumption
  | .tooManyInstanceVariables => s.tooManyInstanceVariables

/-- Replaces the options of a smell. -/
def set (s : SmellSettings) (smell : Smell) (o : SmellOptions) : SmellSettings :=
  match smell with
  | .duplicateMethodCall => { s with duplicateMethodCall := o }
  | .featureEnvy => { s with featureEnvy := o }
  | .instanceVariableAssumption => { s with instanceVariableAssumption := o }
  | .tooManyInstanceVariables => { s with tooManyInstanceVariables := o }

end SmellSettings

/-- Lays an override over options. -/
def SmellOverride.over (o : SmellOverride) (base : SmellOptions) : SmellOptions :=
  { enabled := o.enabled.getD base.enabled
    maxAllowedCalls := o.maxAllowedCalls.getD base.maxAllowedCalls
    allowCalls := o.allowCalls.or base.allowCalls
    maxInstanceVariables := o.maxInstanceVariables.getD base.maxInstanceVariables }

namespace Overrides

/-- The override for a smell of the scope with a given name. -/
def find? (overrides : Overrides) (smell name : Text) : Option SmellOverride :=
  match List.find? (fun entry => entry.1 = name) overrides with
  | some entry => entry.2.lookup smell
  | none => none

end Overrides

namespace Settings

/-- The general options of a smell by its name; an unknown smell is enabled. -/
def general (s : Settings) (smell : Text) : SmellOptions :=
  match Smell.ofName? smell with
  | some known => s.smells.get known
  | none => { enabled := true }

/-- The options of a smell for a scope with given names, innermost first. -/
def resolve (s : Settings) (smell : Text) (names : List Text) : SmellOptions :=
  match names.findSome? (s.overrides.find? smell) with
  | some o => o.over (s.general smell)
  | none => s.general smell

end Settings

end CodeSmell
