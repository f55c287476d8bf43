/-!
# Groups in order of first appearance

Values filed under keys. Keys stand in the order in which they were first used, and the values of a
key in the order in which they were filed.
-/

set_option autoImplicit false

namespace CodeSmell

/-- Values filed under keys, in order of first appearance. -/
abbrev Groups (κ α : Type) := List (κ × List α)

namespace Groups

variable {κ α β : Type} [DecidableEq κ]

/-- Files a value under a key. -/
def add (key : κ) (value : α) : Groups κ α → Groups κ α
  | [] => [(key, [value])]
  | (k, values) :: rest =>
    if k = key then (k, values ++ [value]) :: rest else (k, values) :: add key value rest

/-- The values filed under a key. -/
def get (groups : Groups κ α) (key : κ) : List α :=
  match groups.find? fun g => g.1 = key with
  | some g => g.2
  | none => []

/-- The keys in use, in order of first appearance. -/
def keys (groups : Groups κ α) : List κ := groups.map Prod.fst

/-- Files the values of a list one after the other. -/
def collect (key : β → κ) (value : β → α) (items : List β) : Groups κ α :=
  items.foldl (fun groups item => groups.add (key item) (value item)) []

end Groups

end CodeSmell
