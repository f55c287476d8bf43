import CodeSmell.Fields
import CodeSmell.Number.Shortest
import CodeSmell.Text.Basic

/-!
# Details of warnings

A warning carries details under names. Each is a value of the usual kinds of data. `Datum.plain` is
the text under which two values count as the same.
-/

set_option autoImplicit false

namespace CodeSmell

/-- A value of some kind of data. A record keeps the order of its fields. -/
inductive Datum where
  | null
  | bool (b : Bool)
  | int (n : Int)
  | float (x : Float)
  | text (t : Text)
  | list (items : List Datum)
  | record (fields : List (String × Datum))

instance : Inhabited Datum := ⟨.null⟩

namespace Datum

/-- Doubles as plain text: an exponent is written for values below a ten-thousandth and from a
million on, with at least two digits. -/
def plainFloat : FloatStyle := ⟨-4, 6, 2, 2⟩

mutual

/-- A value as plain text. -/
def plain : Datum → Text
  | .null => "<nil>"
  | .bool b => if b then "true" else "false"
  | .int n => Text.ofInt n
  | .float x => plainFloat.render x
  | .text t => t
  | .list items => "[" ++ Text.join " " (plainAll items) ++ "]"
  | .record fields => "map[" ++ Text.join " " (plainFields fields) ++ "]"

/-- Several values as plain text. -/
def plainAll : List Datum → List Text
  | [] => []
  | d :: ds => plain d :: plainAll ds

/-- Several fields as plain text. -/
def plainFields : List (String × Datum) → List Text
  | [] => []
  | (name, d) :: rest => (name ++ ":" ++ plain d) :: plainFields rest

end

end Datum

end CodeSmell
