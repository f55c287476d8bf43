import CodeSmell.Report.Result
import CodeSmell.Settings.Basic

/-!
# Console reports

A report for reading: a summary, the quality score, the counts by severity and by smell, and the
warnings by source, one a line. Sources stand in the order of their first warning, and the warnings
of a source in their own order.
-/

set_option autoImplicit false

namespace CodeSmell

/-- A colour of the terminal. -/
inductive Color where
  | cyan
  | white
  | green
  | yellow
  | brightYellow
  | red
  | blue
deriving DecidableEq, Repr

/-- The number of a colour in escape sequences. -/
def Color.code : Color → String
  | .cyan => "36"
  | .white => "37"
  | .green => "32"
  | .yellow => "33"
  | .brightYellow => "93"
  | .red => "31"
  | .blue => "34"

namespace Console

/-- A text in a colour, if colours are in use. -/
def paint (colors : Bool) (c : Color) (t : Text) : Text :=
  if colors then "\x1b[" ++ c.code ++ "m" ++ t ++ "\x1b[0m" else t

/-- The colour of a severity. -/
def severityColor (severity : String) : Color :=
  if severity = "CRITICAL" ∨ severity = "HIGH" then .red
  else if severity = "MEDIUM" then .yellow
  else .blue

/-- The colour of a score. -/
def scoreColor (t : Thresholds) (score : Int) : Color :=
  if t.excellent ≤ score then .green
  else if t.good ≤ score then .yellow
  else if t.fair ≤ score then .brightYellow
  else .red

/-- The settings that matter to the warnings. -/
def settingsBlock (s : Settings) : Text :=
  let cyan := paint s.output.colors .cyan
  let t := s.thresholds
  paint s.output.colors .white "Configuration:\n"
    ++ "   max_allowed_calls: "
    ++ cyan (Text.ofInt s.smells.duplicateMethodCall.maxAllowedCalls) ++ "\n"
    ++ "   max_instance_variables: "
    ++ cyan (Text.ofInt s.smells.tooManyInstanceVariables.maxInstanceVariables) ++ "\n"
    ++ "   Score thresholds: "
    ++ cyan (Text.ofInt t.excellent ++ "/" ++ Text.ofInt t.good ++ "/" ++ Text.ofInt t.fair)
    ++ "\n\n"

/-- The counts by severity, the most severe first, without those that are zero. -/
def severityLines (colors : Bool) (r : Result) : Text :=
  ["CRITICAL", "HIGH", "MEDIUM", "LOW"].flatMap fun severity =>
    match r.bySeverity.find? severity with
    | some n =>
      "   " ++ Text.ofString severity ++ ": "
        ++ paint colors (severityColor severity) (Text.ofInt n) ++ "\n"
    | none => []

/-- The counts by smell. -/
def smellLines (r : Result) : Text :=
  r.bySmell.entries.flatMap fun (smell, n) =>
    "   " ++ Text.ofString smell ++ ": " ++ Text.ofInt n ++ "\n"

/-- Lines in brackets. -/
def lineList (lines : List Int) : Text := "[" ++ Text.join ", " (lines.map Text.ofInt) ++ "]:"

/-- A warning in a line. -/
def warningLine (colors : Bool) (w : Warning) : Text :=
  "  " ++ lineList (w.lines.getD []) ++ " " ++ paint colors .white w.context ++ " "
    ++ paint colors (severityColor w.severity.name) ("(" ++ Text.ofString w.smell ++ ")")
    ++ " " ++ w.message ++ "\n"

/-- The warnings of a source under a heading with their number. -/
def sourceBlock (colors : Bool) (source : Text) (warnings : List Warning) : Text :=
  paint colors .cyan (source ++ " -- " ++ Text.ofInt warnings.length ++ " warnings:\n")
    ++ warnings.flatMap (warningLine colors) ++ "\n"

/-- The warnings by source. -/
def sourceBlocks (colors : Bool) (warnings : List Warning) : Text :=
  (Groups.collect Warning.source id warnings).flatMap fun (source, ws) =>
    sourceBlock colors source ws

/-- The counts and the warnings, or a word of praise when there are none. -/
def findings (colors : Bool) (r : Result) : Text :=
  if r.warnings.isEmpty then paint colors .green "No smells detected! Great job!\n\n"
  else
    paint colors .white "Warnings by Severity:\n" ++ severityLines colors r
      ++ paint colors .white "Warnings by Smell:\n" ++ smellLines r
      ++ "\n" ++ sourceBlocks colors r.warnings

/-- The whole report. -/
def report (s : Settings) (r : Result) : Text :=
  let colors := s.output.colors
  paint colors .cyan "SmellCheck Analysis Report\n"
    ++ paint colors .white "=======================================\n\n"
    ++ (if s.output.verbose then settingsBlock s else [])
    ++ paint colors .white "Summary:\n"
    ++ "   Files analyzed: " ++ Text.ofInt r.files.length ++ "\n"
    ++ "   Warnings found: " ++ Text.ofInt r.warnings.length ++ "\n\n"
    ++ "Quality Score: "
    ++ paint colors (scoreColor s.thresholds r.score) (Text.ofInt r.score) ++ "/100\n\n"
    ++ findings colors r
    ++ paint colors .white ("Analysis completed in " ++ Text.ofString r.duration ++ "\n")

end Console

end CodeSmell
