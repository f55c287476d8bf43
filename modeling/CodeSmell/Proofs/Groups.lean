import CodeSmell.Groups
import Mathlib.Data.List.Induction
import Mathlib.Data.List.Nodup

/-!
# Groups

A value that is filed under a key goes to the end of the values of that key, and a new key goes to
the end of the keys (`Groups.get_add`, `Groups.keys_add`). Values that are filed one after the other
are thus grouped by their keys in order of first appearance (`Groups.collect_eq`). No group is ever
empty. `Groups.InFirstOrder` says of a list that it holds what it should in that order.
-/

set_option autoImplicit false

namespace CodeSmell

namespace Groups

theorem eraseDups_concat {κ : Type} [BEq κ] [LawfulBEq κ] (ks : List κ) (k : κ) :
    (ks ++ [k]).eraseDups = if k ∈ ks then ks.eraseDups else ks.eraseDups ++ [k] := by
  rw [List.eraseDups_append, List.removeAll, List.filter_cons]
  by_cases known : k ∈ ks <;> simp [known, List.eraseDups_cons]

/-! ## Order of first appearance -/

section FirstOrder

variable {κ : Type} [BEq κ] [LawfulBEq κ]

/-- A list holds the elements of another that have a property, each of them once and in the order in
which they first appear there. -/
structure InFirstOrder (items : List κ) (p : κ → Prop) (chosen : List κ) : Prop where
  mem_iff : ∀ k, k ∈ chosen ↔ k ∈ items ∧ p k
  order : chosen.Pairwise fun k k' => items.idxOf k < items.idxOf k'

/-- Elements without repetitions stand in the order in which they first appear. -/
theorem pairwise_idxOf_eraseDups (items : List κ) :
    items.eraseDups.Pairwise fun k k' => items.idxOf k < items.idxOf k' := by
  induction items using List.reverseRecOn with
  | nil => exact .nil
  | append_singleton items item ih =>
    have earlier : items.eraseDups.Pairwise fun k k' =>
        (items ++ [item]).idxOf k < (items ++ [item]).idxOf k' := by
      refine ih.imp_of_mem fun mem mem' before => ?_
      rw [List.idxOf_append_of_mem (List.mem_eraseDups.1 mem),
        List.idxOf_append_of_mem (List.mem_eraseDups.1 mem')]
      exact before
    rw [eraseDups_concat]
    split
    · exact earlier
    next fresh =>
      refine List.pairwise_append.2 ⟨earlier, List.pairwise_singleton _ _, ?_⟩
      intro k mem k' last
      have old : k ∈ items := List.mem_eraseDups.1 mem
      rw [List.mem_singleton.1 last, List.idxOf_append_of_mem old,
        List.idxOf_append_of_notMem fresh]
      exact Nat.lt_of_lt_of_le (List.idxOf_lt_length_of_mem old) (Nat.le_add_right _ _)

theorem inFirstOrder_filter (items : List κ) (p : κ → Bool) :
    InFirstOrder items (fun k => p k = true) (items.eraseDups.filter p) where
  mem_iff k := by rw [List.mem_filter, List.mem_eraseDups]
  order := (pairwise_idxOf_eraseDups items).filter p

end FirstOrder

/-! ## Filing values -/

variable {κ α β : Type} [DecidableEq κ]

/-- No group is empty after a value has been filed if none was before. -/
theorem ne_nil_of_mem_add {groups : Groups κ α} (filled : ∀ g ∈ groups, g.2 ≠ []) (key : κ)
    (value : α) : ∀ g ∈ groups.add key value, g.2 ≠ [] := by
  induction groups with
  | nil => simp [add]
  | cons first rest ih =>
    obtain ⟨here, below⟩ := List.forall_mem_cons.1 filled
    rw [add]
    split
    · refine List.forall_mem_cons.2 ⟨?_, below⟩
      exact List.append_ne_nil_of_right_ne_nil _ (List.cons_ne_nil value [])
    · exact List.forall_mem_cons.2 ⟨here, ih below⟩

theorem get_ne_nil {groups : Groups κ α} (filled : ∀ g ∈ groups, g.2 ≠ []) {key : κ}
    (used : key ∈ groups.keys) : groups.get key ≠ [] := by
  obtain ⟨group, mem, rfl⟩ := List.mem_map.1 used
  rw [get]
  split
  next g found => exact filled g (List.mem_of_find?_eq_some found)
  next missing =>
    have differs := List.find?_eq_none.1 missing group mem
    simp at differs

/-! ## Keys and values -/

theorem keys_add (groups : Groups κ α) (key : κ) (value : α) :
    (groups.add key value).keys
      = if key ∈ groups.keys then groups.keys else groups.keys ++ [key] := by
  induction groups with
  | nil => rfl
  | cons first rest ih =>
    by_cases same : first.1 = key
    · simp [add, keys, same]
    · have other : key ≠ first.1 := fun h => same h.symm
      rw [add, if_neg same]
      simp only [keys, List.map_cons, List.mem_cons, other, false_or] at ih ⊢
      rw [ih]
      by_cases known : key ∈ rest.map Prod.fst <;> simp [known]

theorem get_cons (first : κ × List α) (rest : Groups κ α) (key : κ) :
    Groups.get (first :: rest) key = if first.1 = key then first.2 else rest.get key := by
  simp only [get, List.find?_cons]
  by_cases same : first.1 = key <;> simp [same]

theorem get_add (groups : Groups κ α) (key k : κ) (value : α) :
    (groups.add key value).get k = groups.get k ++ if key = k then [value] else [] := by
  induction groups with
  | nil =>
    rw [add, get_cons]
    split <;> rfl
  | cons first rest ih =>
    by_cases same : first.1 = key
    · subst same
      rw [add, if_pos rfl, get_cons, get_cons]
      split <;> simp
    · rw [add, if_neg same, get_cons, get_cons, ih]
      split <;> grind

theorem nodup_keys_add {groups : Groups κ α} (distinct : groups.keys.Nodup) (key : κ) (value : α) :
    (groups.add key value).keys.Nodup := by
  rw [keys_add]
  split
  · exact distinct
  next fresh =>
    rw [← List.concat_eq_append]
    exact distinct.concat fresh

/-- Groups are known from their keys and the values of each. -/
theorem eq_map_get {groups : Groups κ α} (distinct : groups.keys.Nodup) :
    groups = groups.keys.map fun k => (k, groups.get k) := by
  induction groups with
  | nil => rfl
  | cons first rest ih =>
    obtain ⟨fresh, distinct⟩ := List.nodup_cons.1 distinct
    rw [keys, List.map_cons, List.map_cons, get_cons, if_pos rfl]
    nth_rewrite 1 [ih distinct]
    refine congrArg (first :: ·) (List.map_congr_left fun k mem => ?_)
    have other : first.1 ≠ k := fun h => fresh (h ▸ mem)
    rw [get_cons, if_neg other]

theorem collect_concat (key : β → κ) (value : β → α) (items : List β) (item : β) :
    collect key value (items ++ [item])
      = (collect key value items).add (key item) (value item) := by
  rw [collect, List.foldl_append]
  rfl

theorem keys_collect [BEq κ] [LawfulBEq κ] (key : β → κ) (value : β → α) (items : List β) :
    (collect key value items).keys = (items.map key).eraseDups := by
  induction items using List.reverseRecOn with
  | nil => rfl
  | append_singleton items item ih =>
    rw [collect_concat, keys_add, ih, List.map_append, List.map_singleton, eraseDups_concat]
    simp only [List.mem_eraseDups]

theorem get_collect (key : β → κ) (value : β → α) (items : List β) (k : κ) :
    (collect key value items).get k = (items.filter fun item => key item = k).map value := by
  induction items using List.reverseRecOn with
  | nil => rfl
  | append_singleton items item ih =>
    rw [collect_concat, get_add, ih, List.filter_append, List.map_append]
    by_cases same : key item = k <;> simp [same]

theorem nodup_keys_collect (key : β → κ) (value : β → α) (items : List β) :
    (collect key value items).keys.Nodup := by
  induction items using List.reverseRecOn with
  | nil => exact List.nodup_nil
  | append_singleton items item ih =>
    rw [collect_concat]
    exact nodup_keys_add ih _ _

/-- Values filed one after the other are grouped by their keys in order of first appearance. -/
theorem collect_eq [BEq κ] [LawfulBEq κ] (key : β → κ) (value : β → α) (items : List β) :
    collect key value items = (items.map key).eraseDups.map fun k =>
      (k, (items.filter fun item => key item = k).map value) := by
  rw [← keys_collect key value]
  simp only [← get_collect key value]
  exact eq_map_get (nodup_keys_collect key value items)

/-! ## Other values under the same keys -/

variable {γ : Type}

/-- The groups with a function applied to every value. -/
def mapValues (f : α → γ) (groups : Groups κ α) : Groups κ γ :=
  groups.map fun g => (g.1, g.2.map f)

theorem mapValues_add (f : α → γ) (groups : Groups κ α) (key : κ) (value : α) :
    (groups.add key value).mapValues f = (groups.mapValues f).add key (f value) := by
  induction groups with
  | nil => rfl
  | cons first rest ih =>
    by_cases same : first.1 = key
    · simp [add, mapValues, same]
    · rw [add, if_neg same]
      simp only [mapValues, List.map_cons, add, if_neg same] at ih ⊢
      rw [ih]

theorem get_mapValues (f : α → γ) (groups : Groups κ α) (key : κ) :
    (groups.mapValues f).get key = (groups.get key).map f := by
  induction groups with
  | nil => rfl
  | cons first rest ih =>
    rw [mapValues, List.map_cons, ← mapValues, get_cons, get_cons, ih]
    split <;> rfl

theorem collect_mapValues (key : β → κ) (value : β → α) (f : α → γ) (items : List β) :
    collect key (fun item => f (value item)) items = (collect key value items).mapValues f := by
  induction items using List.reverseRecOn with
  | nil => rfl
  | append_singleton items item ih => rw [collect_concat, collect_concat, ih, mapValues_add]

end Groups

end CodeSmell
