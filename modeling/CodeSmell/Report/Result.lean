import CodeSmell.Smell.Warning

/-!
# Results

The result of examining files: the files, the warnings about them, and how long it took. Counts by
severity and by smell, and the quality score, follow from the warnings.
-/

set_option autoImplicit false

namespace CodeSmell

/-- What examining files gave. -/
structure Result where
  files : List String := []
  warnings : List Warning := []
  duration : String := ""

/-- The penalty of a severity. -/
def Severity.penalty (s : Severity) : Nat :=
  if s = low then 3
  else if s = medium then 8
  else if s = high then 20
  else if s = critical then 40
  else 0

/-- The smells that concern the design as a whole, which weigh half as much again. -/
def designSmells : List String := [Smell.featureEnvy.name, Smell.tooManyInstanceVariables.name]

/-- The penalty of a warning. -/
def Warning.penalty (w : Warning) : Nat :=
  if w.smell ∈ designSmells then w.severity.penalty * 3 / 2 else w.severity.penalty

/-- The quality score of warnings: what the penalties leave of a hundred. -/
def qualityScore (warnings : List Warning) : Nat :=
  100 - (warnings.map Warning.penalty).foldr (· + ·) 0

/-- How many warnings have each key. -/
def tally (key : Warning → String) (warnings : List Warning) : Fields String Nat :=
  (Fields.ofList (warnings.map fun w => (key w, ()))).map fun k _ =>
    warnings.countP fun w => key w = k

namespace Result

/-- The number of warnings of each severity. -/
def bySeverity (r : Result) : Fields String Nat := tally (fun w => w.severity.name) r.warnings

/-- The number of warnings about each smell. -/
def bySmell (r : Result) : Fields String Nat := tally Warning.smell r.warnings

/-- The quality score. -/
def score (r : Result) : Nat := qualityScore r.warnings

end Result

end CodeSmell
