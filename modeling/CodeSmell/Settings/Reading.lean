import CodeSmell.Settings.Validation
import CodeSmell.Yaml.Codec
import CodeSmell.Yaml.Decoding

/-!
# Reading settings

Settings are read from a document that is laid over the default settings: what the document leaves
out stays as it is. So does what it gives no value, except that a list or a table without a value
becomes missing. Unknown keys are ignored, repeated ones are refused. All values of a wrong type are
reported together, and settings of the right types have to be valid.
-/

set_option autoImplicit false

namespace CodeSmell

/-- Why settings cannot be read. -/
inductive SettingsError where
  | unreadable (problem : Yaml.Problem)
  /-- Entries are taken over next to a key that is a collection. -/
  | collectionKey
  | mistyped (faults : List Yaml.TypeFault)
  | invalid (fault : SettingsFault)

/-- The wording of an error in a file. -/
def SettingsError.message (file : String) : SettingsError → Text
  | .unreadable problem => s!"failed to parse config file {file}: {problem.message}"
  | .collectionKey => s!"failed to parse config file {file}: a collection is no key"
  | .mistyped faults =>
    s!"failed to parse config file {file}: yaml: unmarshal errors:\n  " ++
      Text.join "\n  " (faults.map Yaml.TypeFault.message)
  | .invalid fault => "invalid configuration: " ++ fault.message

open Yaml

namespace Settings

/-- The keys of the thresholds. -/
def thresholdKeys : List (KeyRule Thresholds) :=
  [.ofScalar "excellent" Node.decodeInt fun t n => { t with excellent := n },
    .ofScalar "good" Node.decodeInt fun t n => { t with good := n },
    .ofScalar "fair" Node.decodeInt fun t n => { t with fair := n },
    .ofScalar "poor" Node.decodeInt fun t n => { t with poor := n }]

/-- The keys that concern the analysis. -/
def analysisKeys : List (KeyRule Settings) :=
  [.nested "score_thresholds" "config.ScoreThresholds" thresholdKeys (·.thresholds)
      fun s t => { s with thresholds := t },
    .ofScalar "max_workers" Node.decodeInt fun s n => { s with maxWorkers := n }]

/-- The keys that concern reports. -/
def outputKeys : List (KeyRule OutputSettings) :=
  [.ofScalar "format" Node.decodeString fun o v => { o with format := v },
    .ofScalar "colors" Node.decodeBool fun o v => { o with colors := v },
    .ofScalar "verbose" Node.decodeBool fun o v => { o with verbose := v },
    .ofScalar "output_file" Node.decodeString fun o v => { o with file := v }]

/-- The keys of a smell's options. -/
def optionKeys : List (KeyRule SmellOptions) :=
  [.ofScalar "enabled" Node.decodeBool fun o v => { o with enabled := v },
    .ofScalar "max_allowed_calls" Node.decodeInt fun o v => { o with maxAllowedCalls := v },
    .ofOptional "allow_calls" Node.decodeStrings fun o v => { o with allowCalls := v },
    .ofScalar "max_instance_variables" Node.decodeInt
      fun o v => { o with maxInstanceVariables := v }]

/-- The keys of an override. -/
def overrideKeys : List (KeyRule SmellOverride) :=
  [.ofOptional "enabled" Node.decodeBool fun o v => { o with enabled := v },
    .ofOptional "max_allowed_calls" Node.decodeInt fun o v => { o with maxAllowedCalls := v },
    .ofOptional "allow_calls" Node.decodeStrings fun o v => { o with allowCalls := v },
    .ofOptional "max_instance_variables" Node.decodeInt
      fun o v => { o with maxInstanceVariables := v }]

/-- The keys of the smells. -/
def smellKeys : List (KeyRule SmellSettings) :=
  Smell.all.map fun smell =>
    .nested smell.name "config.SmellConfig" optionKeys (·.get smell) (·.set smell)

/-- The keys that concern files. -/
def fileKeys : List (KeyRule FileSettings) :=
  [.ofOptional "exclude" Node.decodeStrings fun f v => { f with exclude := v },
    .ofScalar "max_file_size" Node.decodeInt fun f v => { f with maxSize := v }]

/-- The overrides of a document. -/
def decodeOverrides (node : Node) : Decoding Overrides := do
  let scopes ← decodeTable "map[string]map[string]config.SmellOverride"
    (decodeTable "map[string]config.SmellOverride"
      fun node => layKeys "config.SmellOverride" overrideKeys node {}) node
  pure (scopes.entries.map fun (scope, smells) => (scope, smells.entries))

/-- All keys. -/
def keys : List (KeyRule Settings) :=
  [.ofScalar "version" Node.decodeString fun s v => { s with version := v },
    .ofScalar "project_name" Node.decodeString fun s v => { s with projectName := v },
    ⟨"analysis", layKeys "config.AnalysisConfig" analysisKeys⟩,
    .nested "output" "config.OutputConfig" outputKeys (·.output)
      fun s o => { s with output := o },
    .nested "smells" "config.SmellsConfig" smellKeys (·.smells) fun s o => { s with smells := o },
    ⟨"overrides", fun node s => do pure { s with overrides := ← decodeOverrides node }⟩,
    .nested "files" "config.FilesConfig" fileKeys (·.files) fun s o => { s with files := o }]

/-- Lays a document over settings; the second part lists the values that do not fit, in the order of
the document. -/
def lay (s : Settings) (document : Document) : Except DecodeError (Settings × List TypeFault) :=
  document.decode fun node => layKeys "config.Config" keys node s

/-- The settings of a document. -/
def ofDocument (document : Document) : Except SettingsError Settings :=
  match lay {} document with
  | .error (.unreadable problem) => .error (.unreadable problem)
  | .error .collectionKey => .error .collectionKey
  | .ok (s, []) => .ok s
  | .ok (_, faults) => .error (.mistyped faults)

/-- Reads settings with a codec from a text, which may have no document. -/
def read (y : Codec) (content : Text) : Except SettingsError Settings := do
  let document ← (y.read content).mapError .unreadable
  let s ← match document with
    | some document => ofDocument document
    | none => pure {}
  match s.validate with
  | .error fault => .error (.invalid fault)
  | .ok _ => .ok s

end Settings

end CodeSmell
