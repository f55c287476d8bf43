import CodeSmell.Settings.AllowList
import CodeSmell.Text.Quoted

/-!
# Valid settings

Settings are valid when the thresholds descend, the output format is known, the limits make sense,
and every pattern of an allow list can be read, in the general options as well as in overrides. The
first fault is reported; overrides come last, in the order of their names.
-/

set_option autoImplicit false

namespace CodeSmell

/-- What is wrong with an override. -/
inductive OverrideFault where
  | unknownSmell (name : Text)
  | maxAllowedCalls
  | maxInstanceVariables
  | pattern (entry : Text) (e : RegexError)

/-- What is wrong with settings. -/
inductive SettingsFault where
  | thresholds
  | outputFormat (format : Text)
  | maxWorkers
  | maxAllowedCalls
  | maxInstanceVariables
  | pattern (entry : Text) (e : RegexError)
  | inOverride (scope : Text) (fault : OverrideFault)

/-- The output formats there are. -/
def outputFormats : List Text := ["console", "json"]

/-- The wording of a pattern that cannot be read. -/
def patternMessage (entry : Text) (e : RegexError) : Text :=
  "invalid allow_calls pattern " ++ Text.ofChars (Quoted.encode entry) ++ ": " ++ e.message

/-- The wording of a fault. -/
def SettingsFault.message : SettingsFault → Text
  | .thresholds => "score thresholds must be in descending order"
  | .outputFormat format => "invalid output format: " ++ format ++ " (valid: [console json])"
  | .maxWorkers => "max_workers must be at least 1"
  | .maxAllowedCalls => "max_allowed_calls must be at least 1"
  | .maxInstanceVariables => "max_instance_variables must not be negative"
  | .pattern entry e => patternMessage entry e
  | .inOverride scope fault =>
    "override for " ++ scope ++ match fault with
      | .unknownSmell name => " names unknown smell " ++ Text.ofChars (Quoted.encode name)
      | .maxAllowedCalls => ": max_allowed_calls must be at least 1"
      | .maxInstanceVariables => ": max_instance_variables must not be negative"
      | .pattern entry e => ": " ++ patternMessage entry e

/-- The first entry whose pattern cannot be read. -/
def badPattern? (entries : Option (List Text)) : Option (Text × RegexError) :=
  (entries.getD []).findSome? fun entry =>
    match patternOf? entry with
    | some pattern =>
      match Regex.read pattern with
      | .ok _ => none
      | .error e => some (entry, e)
    | none => none

/-- What is wrong with an override for the smell of a given name. -/
def SmellOverride.fault? (smell : Text) (o : SmellOverride) : Option OverrideFault :=
  if (Smell.ofName? smell).isNone then some (.unknownSmell smell)
  else if o.maxAllowedCalls.any (· < 1) then some .maxAllowedCalls
  else if o.maxInstanceVariables.any (· < 0) then some .maxInstanceVariables
  else (badPattern? o.allowCalls).map fun (entry, e) => .pattern entry e

namespace Settings

/-- What is wrong with settings. -/
def fault? (s : Settings) : Option SettingsFault :=
  let t := s.thresholds
  if t.excellent < t.good ∨ t.good < t.fair ∨ t.fair < t.poor then some .thresholds
  else if s.output.format ∉ outputFormats then some (.outputFormat s.output.format)
  else if s.maxWorkers < 1 then some .maxWorkers
  else if s.smells.duplicateMethodCall.maxAllowedCalls < 1 then some .maxAllowedCalls
  else if s.smells.tooManyInstanceVariables.maxInstanceVariables < 0 then
    some .maxInstanceVariables
  else match badPattern? s.smells.duplicateMethodCall.allowCalls with
    | some (entry, e) => some (.pattern entry e)
    | none =>
      s.overrides.findSome? fun (scope, smells) =>
        smells.findSome? fun (smell, o) => (o.fault? smell).map (.inOverride scope)

/-- Checks settings. -/
def validate (s : Settings) : Except SettingsFault Unit :=
  match s.fault? with
  | some f => .error f
  | none => .ok ()

end Settings

end CodeSmell
