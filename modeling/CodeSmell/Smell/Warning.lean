import CodeSmell.Smell.Basic
import CodeSmell.Smell.Datum

/-!
# Warnings

A warning says which smell was found where. `Selector` picks warnings by their fields, and
`Selector.exactly` tells whether selectors and warnings cover each other.
-/

set_option autoImplicit false

namespace CodeSmell

/-- A smell that was found. The lines may be missing altogether. -/
structure Warning where
  smell : String
  severity : Severity
  source : Text := []
  context : Text := []
  lines : Option (List Int) := none
  message : Text := []
  details : List (String × Datum) := []

/-- A choice of warnings by their fields. Empty texts and missing lines admit everything. -/
structure Selector where
  smell : String := ""
  context : Text := []
  lines : Option (List Int) := none
  message : Text := []
  source : Text := []
  details : List (String × Datum) := []

namespace Selector

/-- Whether a wanted text admits another. -/
def admits (wanted found : Text) : Bool := wanted = [] || wanted = found

/-- Whether details hold a value that reads like a wanted one. -/
def hasDetail (details : List (String × Datum)) (wanted : String × Datum) : Bool :=
  match details.lookup wanted.1 with
  | some found => found.plain = wanted.2.plain
  | none => false

/-- Whether a selector picks a warning. Missing lines of a warning count as no lines. -/
def selects (s : Selector) (w : Warning) : Bool :=
  (s.smell = "" || s.smell = w.smell)
    && admits s.context w.context && admits s.message w.message && admits s.source w.source
    && s.lines.all (· = w.lines.getD [])
    && s.details.all (hasDetail w.details)

/-- Whether each selector picks a warning and each warning is picked by a selector. -/
def exactly (selectors : List Selector) (warnings : List Warning) : Bool :=
  (selectors.all fun s => warnings.any s.selects)
    && warnings.all fun w => selectors.any fun s => s.selects w

end Selector

end CodeSmell
