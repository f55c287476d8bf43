/-!
# Fields by name

Values under names. In `Fields` no name occurs twice and names increase, so that two of them are
equal if they have the same value under each name. Texts are compared by their bytes and strings by
their characters, which is the same order.
-/

set_option autoImplicit false

namespace CodeSmell

variable {κ α β : Type} [LT κ]

/-- Fields whose names increase. -/
def Increasing (fields : List (κ × α)) : Prop := fields.Pairwise fun f f' => f.1 < f'.1

/-- Puts a value under a name: in the place of the value that the name has, or else in front of the
first greater name. -/
def insertField [DecidableEq κ] [DecidableLT κ] (name : κ) (value : α) :
    List (κ × α) → List (κ × α)
  | [] => [(name, value)]
  | (n, v) :: rest =>
    if name = n then (name, value) :: rest
    else if name < n then (name, value) :: (n, v) :: rest
    else (n, v) :: insertField name value rest

theorem mem_names_insertField [DecidableEq κ] [DecidableLT κ] {name other : κ} {value : α}
    {fields : List (κ × α)} :
    other ∈ (insertField name value fields).map Prod.fst
      ↔ other = name ∨ other ∈ fields.map Prod.fst := by
  induction fields with
  | nil => simp [insertField]
  | cons field fields ih =>
    obtain ⟨n, v⟩ := field
    rw [insertField]
    split
    next same => simp [same]
    next =>
      split
      · simp
      · rw [List.map_cons, List.mem_cons, ih, List.map_cons, List.mem_cons]
        exact or_left_comm

/-- Putting a value under a name keeps names increasing. -/
theorem Increasing.insertField [DecidableEq κ] [DecidableLT κ] [LE κ] [Std.IsLinearOrder κ]
    [Std.LawfulOrderLT κ] {name : κ} {value : α} {fields : List (κ × α)}
    (increasing : Increasing fields) : Increasing (insertField name value fields) := by
  induction fields with
  | nil => exact List.pairwise_singleton _ _
  | cons field fields ih =>
    obtain ⟨n, v⟩ := field
    obtain ⟨first, rest⟩ := List.pairwise_cons.1 increasing
    rw [CodeSmell.insertField]
    split
    next same => exact List.pairwise_cons.2 ⟨same ▸ first, rest⟩
    next different =>
      split
      next before =>
        refine List.pairwise_cons.2 ⟨?_, increasing⟩
        intro f mem
        rcases List.mem_cons.1 mem with rfl | later
        · exact before
        · exact Std.lt_trans before (first f later)
      next notBefore =>
        have after : n < name := Std.lt_of_le_of_ne (Std.not_lt.1 notBefore) (Ne.symm different)
        refine List.pairwise_cons.2 ⟨?_, ih rest⟩
        intro f mem
        -- the names behind the first one are the old names and the new one
        rcases mem_names_insertField.1 (List.mem_map_of_mem mem) with new | old
        · rw [new]
          exact after
        · obtain ⟨f', listed, named⟩ := List.mem_map.1 old
          rw [← named]
          exact first f' listed

/-- Values under names that are distinct and increase. -/
structure Fields (κ α : Type) [LT κ] where
  entries : List (κ × α)
  increasing : Increasing entries

namespace Fields

/-- No fields. -/
def empty : Fields κ α := ⟨[], .nil⟩

/-- The names, in increasing order. -/
def names (fields : Fields κ α) : List κ := fields.entries.map Prod.fst

/-- The value under a name. -/
def find? [DecidableEq κ] (fields : Fields κ α) (name : κ) : Option α := fields.entries.lookup name

/-- The fields with other values. -/
def map (f : κ → α → β) (fields : Fields κ α) : Fields κ β where
  entries := fields.entries.map fun field => (field.1, f field.1 field.2)
  increasing := by
    apply List.pairwise_map.2
    exact fields.increasing

section

variable [DecidableEq κ] [DecidableLT κ] [LE κ] [Std.IsLinearOrder κ] [Std.LawfulOrderLT κ]

/-- Puts a value under a name. -/
def insert (fields : Fields κ α) (name : κ) (value : α) : Fields κ α :=
  ⟨insertField name value fields.entries, fields.increasing.insertField⟩

/-- The fields of a list; of several values under one name the last stays. -/
def ofList (items : List (κ × α)) : Fields κ α :=
  items.foldl (fun fields item => fields.insert item.1 item.2) empty

end

end Fields

end CodeSmell
