import CodeSmell.Settings.Basic
import CodeSmell.Text.NaturalOrder
import CodeSmell.Yaml.Writer

/-!
# Writing settings

Settings are written as a document with their parts in a fixed order, and overrides in the natural
order of their names. Options of a smell that are zero or empty are left out, as are the name of the
project and the report's file where there is none.
-/

set_option autoImplicit false

namespace CodeSmell

open Yaml

namespace Settings

/-- An entry. -/
def field (name : String) (v : Value) : List (Text × Value) := [(name, v)]

/-- An entry for a text that is not empty. -/
def textField (name : String) (t : Text) : List (Text × Value) :=
  if t = [] then [] else [(name, .text t)]

/-- An entry for an integer that is not zero. -/
def countField (name : String) (n : Int) : List (Text × Value) :=
  if n = 0 then [] else [(name, .int n)]

/-- An entry for a list that is not empty. -/
def listField (name : String) (items : Option (List Text)) : List (Text × Value) :=
  match items with
  | some (item :: items) => [(name, .list (item :: items))]
  | _ => []

/-- An entry for a value that is set. -/
def optionalField {α : Type} (name : String) (write : α → Value) (value : Option α) :
    List (Text × Value) :=
  match value with
  | some a => [(name, write a)]
  | none => []

/-- The entries for the options of a smell. -/
def optionFields (o : SmellOptions) : List (Text × Value) :=
  field "enabled" (.bool o.enabled) ++ countField "max_allowed_calls" o.maxAllowedCalls ++
    listField "allow_calls" o.allowCalls ++
    countField "max_instance_variables" o.maxInstanceVariables

/-- The entries for an override. -/
def overrideFields (o : SmellOverride) : List (Text × Value) :=
  optionalField "enabled" .bool o.enabled ++
    optionalField "max_allowed_calls" .int o.maxAllowedCalls ++
    listField "allow_calls" o.allowCalls ++
    optionalField "max_instance_variables" .int o.maxInstanceVariables

/-- The entries for the overrides of a scope. -/
def scopeFields (smells : List (Text × SmellOverride)) : List (Text × Value) :=
  (NaturalOrder.sort smells).map fun (smell, o) => (smell, .table (overrideFields o))

/-- An entry for the overrides of all scopes, if there are any. -/
def overridesField (overrides : Overrides) : List (Text × Value) :=
  if overrides.isEmpty then []
  else
    field "overrides" (.table ((NaturalOrder.sort overrides).map fun (scope, smells) =>
      (scope, .table (scopeFields smells))))

/-- The entries for the thresholds. -/
def thresholdFields (t : Thresholds) : List (Text × Value) :=
  field "excellent" (.int t.excellent) ++ field "good" (.int t.good) ++
    field "fair" (.int t.fair) ++ field "poor" (.int t.poor)

/-- The entries that concern the analysis. -/
def analysisFields (s : Settings) : List (Text × Value) :=
  field "score_thresholds" (.table (thresholdFields s.thresholds)) ++
    field "max_workers" (.int s.maxWorkers)

/-- The entries that concern reports. -/
def outputFields (o : OutputSettings) : List (Text × Value) :=
  field "format" (.text o.format) ++ field "colors" (.bool o.colors) ++
    field "verbose" (.bool o.verbose) ++ textField "output_file" o.file

/-- The entries of the smells. -/
def smellFields (smells : SmellSettings) : List (Text × Value) :=
  Smell.all.flatMap fun smell => field smell.name (.table (optionFields (smells.get smell)))

/-- The entries that concern files. -/
def fileFields (f : FileSettings) : List (Text × Value) :=
  field "exclude" (.list (f.exclude.getD [])) ++ field "max_file_size" (.int f.maxSize)

/-- The entries of a document for settings. -/
def entries (s : Settings) : List (Text × Value) :=
  field "version" (.text s.version) ++ textField "project_name" s.projectName ++
    field "analysis" (.table (analysisFields s)) ++
    field "output" (.table (outputFields s.output)) ++
    field "smells" (.table (smellFields s.smells)) ++ overridesField s.overrides ++
    field "files" (.table (fileFields s.files))

end Settings

end CodeSmell
