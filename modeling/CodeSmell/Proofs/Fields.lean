import CodeSmell.Fields
import Mathlib.Data.List.Induction
import Mathlib.Data.List.Nodup

/-!
# Fields with distinct names

Putting a value under a name changes what is found under this name only. Fields are known from what
is found under each name (`Fields.ext_find?`), and the fields of a list with distinct names are the
list in another order (`Fields.perm_ofList`).
-/

set_option autoImplicit false

namespace CodeSmell

variable {κ α : Type}

/-! ## Lists of named values -/

theorem names_map {β : Type} (g : β → α) (items : List (κ × β)) :
    (items.map fun item => (item.1, g item.2)).map Prod.fst = items.map Prod.fst := by
  rw [List.map_map]
  rfl

/-- What only one member satisfies is found in any order. -/
theorem find?_eq_of_perm {β : Type} {l l' : List β} {p : β → Bool} (perm : l'.Perm l)
    (unique : ∀ a ∈ l, ∀ b ∈ l, p a = true → p b = true → a = b) : l'.find? p = l.find? p := by
  induction perm with
  | nil => rfl
  | cons x _ ih =>
    rw [List.find?_cons, List.find?_cons, ih]
    intro a mem b mem'
    exact unique a (List.mem_cons_of_mem _ mem) b (List.mem_cons_of_mem _ mem')
  | swap x y l =>
    rw [List.find?_cons, List.find?_cons, List.find?_cons, List.find?_cons]
    cases first : p x with
    | false => rfl
    | true =>
      cases second : p y with
      | false => rfl
      | true => rw [unique x (by simp) y (by simp) first second]
  | trans _ later ih ih' =>
    rw [ih, ih' unique]
    intro a mem b mem'
    exact unique a (later.mem_iff.1 mem) b (later.mem_iff.1 mem')

/-- Named values with distinct names and changed values, in whatever order: what is found under a
name is the changed value. -/
theorem find?_of_perm_map {β : Type} {g : β → α} {fields : List (κ × α)} {items : List (κ × β)}
    {q : κ → Bool} (perm : fields.Perm (items.map fun item => (item.1, g item.2)))
    (distinct : (items.map Prod.fst).Nodup)
    (unique : ∀ a b, q a = true → q b = true → a = b) :
    fields.find? (fun field => q field.1)
      = (items.find? fun item => q item.1).map fun item => (item.1, g item.2) := by
  rw [find?_eq_of_perm perm, List.find?_map]
  · rfl
  · intro a mem b mem' isA isB
    obtain ⟨a, listed, rfl⟩ := List.mem_map.1 mem
    obtain ⟨b, listed', rfl⟩ := List.mem_map.1 mem'
    rw [List.inj_on_of_nodup_map distinct listed listed' (unique a.1 b.1 isA isB)]

section Lookup

variable [BEq κ] {name other : κ} {value : α} {fields fields' : List (κ × α)}

theorem lookup_eq_find? (fields : List (κ × α)) (name : κ) :
    fields.lookup name = (fields.find? fun field => name == field.1).map Prod.snd := by
  induction fields with
  | nil => rfl
  | cons field fields ih =>
    rw [List.lookup_cons, List.find?_cons, ih]
    cases name == field.1 <;> rfl

variable [LawfulBEq κ]

/-- Under a name that occurs once its own value is found. -/
theorem lookup_eq_some_iff_mem (distinct : (fields.map Prod.fst).Nodup) :
    fields.lookup name = some value ↔ (name, value) ∈ fields := by
  constructor
  · intro found
    obtain ⟨before, after, rfl, -⟩ := List.lookup_eq_some_iff.1 found
    exact List.mem_append_right _ List.mem_cons_self
  · intro mem
    obtain ⟨before, after, rfl⟩ := List.append_of_mem mem
    apply List.lookup_eq_some_iff.2
    refine ⟨before, after, rfl, ?_⟩
    intro field earlier
    rw [List.map_append, List.map_cons, List.nodup_append] at distinct
    have differs := distinct.2.2 field.1 (List.mem_map_of_mem earlier) name List.mem_cons_self
    rw [bne_iff_ne]
    exact differs.symm

variable [LT κ] [DecidableEq κ] [DecidableLT κ]

theorem lookup_insertField_self : (insertField name value fields).lookup name = some value := by
  induction fields with
  | nil => exact List.lookup_cons_self
  | cons field fields ih =>
    obtain ⟨n, v⟩ := field
    rw [insertField]
    split
    · exact List.lookup_cons_self
    · split
      · exact List.lookup_cons_self
      · rename_i different _
        rw [List.lookup_cons, beq_eq_false_iff_ne.2 different]
        exact ih

theorem lookup_insertField_of_ne (different : other ≠ name) :
    (insertField name value fields).lookup other = fields.lookup other := by
  induction fields with
  | nil => rw [insertField, List.lookup_cons, beq_eq_false_iff_ne.2 different]
  | cons field fields ih =>
    obtain ⟨n, v⟩ := field
    rw [insertField]
    split
    · rename_i same
      rw [List.lookup_cons, List.lookup_cons, ← same, beq_eq_false_iff_ne.2 different]
    · split
      · rw [List.lookup_cons, beq_eq_false_iff_ne.2 different]
      · rw [List.lookup_cons, List.lookup_cons, ih]

end Lookup

/-- A new name makes one more field. -/
theorem perm_insertField [LT κ] [DecidableEq κ] [DecidableLT κ] {name : κ} {value : α}
    {fields : List (κ × α)} (new : name ∉ fields.map Prod.fst) :
    (insertField name value fields).Perm ((name, value) :: fields) := by
  induction fields with
  | nil => exact .refl _
  | cons field fields ih =>
    obtain ⟨n, v⟩ := field
    rw [insertField, if_neg (List.ne_of_not_mem_cons new)]
    split
    · exact .refl _
    · exact ((ih (List.not_mem_of_not_mem_cons new)).cons (n, v)).trans (.swap ..)

/-! ## Fields -/

namespace Fields

variable [LT κ] [DecidableEq κ] [LE κ] [Std.IsLinearOrder κ] [Std.LawfulOrderLT κ]
  {name other : κ} {value : α} {fields fields' : Fields κ α}

omit [Std.IsLinearOrder κ] in
/-- Nothing is found under a name in front of all others. -/
theorem lookup_eq_none_of_lt {entries : List (κ × α)} (before : ∀ f ∈ entries, name < f.1) :
    entries.lookup name = none := by
  rw [List.lookup_eq_none_iff]
  intro f mem
  rw [bne_iff_ne]
  rintro rfl
  exact Std.lt_irrefl (before f mem)

/-- Nothing is found under a name in front of the first one. -/
theorem le_of_lookup {field : κ × α} {rest : List (κ × α)}
    (increasing : Increasing (field :: rest))
    (listed : (field :: rest).lookup name = some value) : field.1 ≤ name := by
  apply Std.not_lt.1
  intro before
  have first := (List.pairwise_cons.1 increasing).1
  have absent : (field :: rest).lookup name = none := by
    apply lookup_eq_none_of_lt
    intro f mem
    rcases List.mem_cons.1 mem with rfl | later
    · exact before
    · exact Std.lt_trans before (first f later)
  rw [absent] at listed
  cases listed

theorem entries_ext {entries entries' : List (κ × α)} (increasing : Increasing entries)
    (increasing' : Increasing entries')
    (same : ∀ name, entries.lookup name = entries'.lookup name) : entries = entries' := by
  induction entries generalizing entries' with
  | nil =>
    cases entries' with
    | nil => rfl
    | cons field' rest' =>
      have absent := same field'.1
      rw [List.lookup_cons_self] at absent
      cases absent
  | cons field rest ih =>
    obtain ⟨n, v⟩ := field
    cases entries' with
    | nil =>
      have absent := same n
      rw [List.lookup_cons_self] at absent
      cases absent
    | cons field' rest' =>
      obtain ⟨n', v'⟩ := field'
      have here : (rest'.cons (n', v')).lookup n = some v :=
        (same n).symm.trans List.lookup_cons_self
      have here' : (rest.cons (n, v)).lookup n' = some v' :=
        (same n').trans List.lookup_cons_self
      obtain rfl : n = n' :=
        Std.le_antisymm (le_of_lookup increasing here') (le_of_lookup increasing' here)
      obtain rfl : v' = v := Option.some.inj (List.lookup_cons_self.symm.trans here)
      obtain ⟨first, later⟩ := List.pairwise_cons.1 increasing
      obtain ⟨first', later'⟩ := List.pairwise_cons.1 increasing'
      refine congrArg ((n, v') :: ·) (ih later later' fun name => ?_)
      by_cases again : name = n
      -- the name of the first field does not occur again
      · rw [again, lookup_eq_none_of_lt first, lookup_eq_none_of_lt first']
      · have below := same name
        rw [List.lookup_cons, List.lookup_cons, beq_eq_false_iff_ne.2 again] at below
        exact below

/-- Fields are known from what is found under each name. -/
theorem ext_find? (same : ∀ name, fields.find? name = fields'.find? name) : fields = fields' := by
  obtain ⟨entries, increasing⟩ := fields
  obtain ⟨entries', increasing'⟩ := fields'
  obtain rfl : entries = entries' := entries_ext increasing increasing' same
  rfl

/-! ## Putting values under names -/

variable [DecidableLT κ]

theorem find?_insert_self : (fields.insert name value).find? name = some value :=
  lookup_insertField_self

theorem find?_insert_of_ne (different : other ≠ name) :
    (fields.insert name value).find? other = fields.find? other :=
  lookup_insertField_of_ne different

theorem mem_names_insert :
    other ∈ (fields.insert name value).names ↔ other = name ∨ other ∈ fields.names :=
  mem_names_insertField

theorem ofList_concat (items : List (κ × α)) (item : κ × α) :
    ofList (items ++ [item]) = (ofList items).insert item.1 item.2 := by
  rw [ofList, List.foldl_append]
  rfl

theorem mem_names_ofList (items : List (κ × α)) (name : κ) :
    name ∈ (ofList items).names ↔ name ∈ items.map Prod.fst := by
  induction items using List.reverseRecOn with
  | nil => rfl
  | append_singleton items item ih =>
    rw [ofList_concat, mem_names_insert, ih, List.map_append, List.mem_append,
      List.map_singleton, List.mem_singleton]
    exact or_comm

/-- The fields of a list with distinct names are its members. -/
theorem perm_ofList {items : List (κ × α)} (distinct : (items.map Prod.fst).Nodup) :
    (ofList items).entries.Perm items := by
  induction items using List.reverseRecOn with
  | nil => exact .refl _
  | append_singleton items item ih =>
    rw [List.map_append, List.nodup_append] at distinct
    have new : item.1 ∉ (ofList items).names := by
      rw [mem_names_ofList]
      intro mem
      exact distinct.2.2 item.1 mem item.1 List.mem_cons_self rfl
    rw [ofList_concat]
    exact (perm_insertField new).trans (((ih distinct.1).cons item).trans
      (List.perm_append_singleton item items).symm)

end Fields

end CodeSmell
