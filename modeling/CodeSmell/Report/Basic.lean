import CodeSmell.Report.Console
import CodeSmell.Report.Json

/-!
# Reports

A result is reported as a JSON document or, in any other format, for reading on a console.
-/

set_option autoImplicit false

namespace CodeSmell

/-- The report of a result in the format that the settings ask for. -/
def Result.report (s : Settings) (r : Result) : Text :=
  if s.output.format = "json" then r.json else Console.report s r

end CodeSmell
