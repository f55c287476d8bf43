import CodeSmell.Proofs.Encoding
import CodeSmell.Proofs.WrittenFiles
import CodeSmell.Settings.Exclusion

/-!
# Excluded directories

A pattern that ends in `/**` stands for what lies below a directory. The text in front of the ending
is looked for as a single component of a path (`excludes_directory_iff`). Components hold no slash,
so a directory that is given by several components is never found, whatever lies below it. And since
the last component of a path is looked at like the others, a path that ends in the name is excluded
too, though it lies below no directory of that name. `directory_pattern_exact_iff` says that these
are the only two cases in which such a pattern excludes something else than what lies below the
directory.
-/

set_option autoImplicit false

namespace CodeSmell

/-! ## Components -/

namespace Path

theorem separator_notMem_of_mem_split {separator : Char} {cs part : List Char}
    (mem : part ∈ split separator cs) : separator ∉ part := by
  induction cs generalizing part with
  | nil =>
    rw [split, List.mem_singleton] at mem
    rw [mem]
    exact List.not_mem_nil
  | cons c cs ih =>
    rw [split] at mem
    split at mem
    next =>
      rcases List.mem_cons.1 mem with rfl | later
      · exact List.not_mem_nil
      · exact ih later
    next different =>
      split at mem
      next first parts whole =>
        rw [whole] at ih
        rcases List.mem_cons.1 mem with rfl | later
        · intro inside
          rcases List.mem_cons.1 inside with same | below
          · exact different same.symm
          · exact ih List.mem_cons_self below
        · exact ih (List.mem_cons_of_mem _ later)
      next empty => exact absurd empty (split_ne_nil separator cs)

theorem slash_notMem_of_mem_components {path name : String} (mem : name ∈ components path) :
    '/' ∉ name.toList := by
  obtain ⟨part, listed, rfl⟩ := List.mem_map.1 mem
  rw [String.toList_ofList]
  exact separator_notMem_of_mem_split listed

/-- The path of two components or more has a slash in it. -/
theorem slash_mem_intercalate (first second : String) (more : List String) :
    '/' ∈ ("/".intercalate (first :: second :: more)).toList := by
  rw [String.toList_intercalate, List.map_cons, List.map_cons, List.intercalate_cons_cons]
  apply List.mem_append_left
  apply List.mem_append_right
  exact List.mem_singleton.2 rfl

/-- A path lies below a directory: the components of the directory follow each other among those of
the path, and there is at least one more behind them. -/
def LiesBelow (directory : List String) (path : String) : Prop :=
  ∃ before after, after ≠ [] ∧ components path = before ++ directory ++ after

/-- A path has a name as a component if it lies below a directory of that name or ends in it. -/
theorem mem_components_iff (name path : String) :
    name ∈ components path ↔
      LiesBelow [name] path ∨ (components path).getLast? = some name := by
  constructor
  · intro mem
    obtain ⟨before, after, parts⟩ := List.mem_iff_append.1 mem
    cases after with
    | nil =>
      right
      rw [parts]
      exact List.getLast?_concat
    | cons next after =>
      left
      refine ⟨before, next :: after, List.cons_ne_nil next after, ?_⟩
      rw [parts, List.append_assoc]
      rfl
  · rintro (⟨before, after, -, parts⟩ | last)
    · rw [parts]
      simp
    · exact List.mem_of_getLast? last

end Path

/-! ## Patterns -/

theorem directoryOf?_append (directory : Text) :
    directoryOf? (directory ++ "/**") = some directory := by
  have ending : (directory ++ Text.ofString "/**").reverse
      = 0x2A :: 0x2A :: 0x2F :: directory.reverse := by
    rw [List.reverse_append]
    rfl
  simp only [directoryOf?, ending, List.reverse_reverse]

/-- The text in front of the ending is looked for among the components. -/
theorem excludes_directory_iff (directory path : String) :
    isExcluded [directory ++ "/**"] path = true ↔ directory ∈ Path.components path := by
  rw [isExcluded, List.any_cons, List.any_nil, Bool.or_false, excludes, directoryOf?_append]
  simp [Text.ofString_inj]

/-- The path of a directory is a component of another path only if the directory has one component.
-/
theorem intercalate_mem_components_iff {directory : List String} (given : directory ≠ [])
    (path : String) :
    "/".intercalate directory ∈ Path.components path ↔
      ∃ name, directory = [name] ∧ name ∈ Path.components path := by
  rcases directory with _ | ⟨first, _ | ⟨second, more⟩⟩
  · exact absurd rfl given
  · rw [String.intercalate_singleton]
    simp
  · refine iff_of_false ?_ (by simp)
    intro mem
    exact Path.slash_notMem_of_mem_components mem (Path.slash_mem_intercalate first second more)

/-- A pattern for what lies below a directory excludes a path exactly if the directory is given by a
single name and that name is a component of the path. This is what the pattern says unless the
directory is given by several components and the path lies below it, or it is given by a name in
which the path ends, without lying below a directory of that name. -/
theorem directory_pattern_exact_iff (directory : List String) (given : directory ≠ [])
    (path : String) :
    (isExcluded ["/".intercalate directory ++ "/**"] path = true ↔
      ∃ name, directory = [name] ∧ name ∈ Path.components path) ∧
    ((isExcluded ["/".intercalate directory ++ "/**"] path = true ↔
        Path.LiesBelow directory path) ↔
      (1 < directory.length → ¬ Path.LiesBelow directory path) ∧
        ∀ name, directory = [name] → (Path.components path).getLast? = some name →
          Path.LiesBelow directory path) := by
  have found := (excludes_directory_iff ("/".intercalate directory) path).trans
    (intercalate_mem_components_iff given path)
  refine ⟨found, ?_⟩
  rw [found]
  rcases directory with _ | ⟨name, _ | ⟨second, more⟩⟩
  · exact absurd rfl given
  · -- a single name: the path lies below it or ends in it
    have component : (∃ name', [name] = [name'] ∧ name' ∈ Path.components path) ↔
        Path.LiesBelow [name] path ∨ (Path.components path).getLast? = some name := by
      rw [← Path.mem_components_iff]
      simp
    rw [component]
    constructor
    · intro exact
      refine ⟨fun several => absurd several (Nat.lt_irrefl 1), ?_⟩
      rintro _ ⟨⟩ last
      exact exact.1 (Or.inr last)
    · rintro ⟨-, ends⟩
      constructor
      · rintro (below | last)
        · exact below
        · exact ends name rfl last
      · exact Or.inl
  · -- several names: no path is excluded
    have nothing : ¬ ∃ name', name :: second :: more = [name'] ∧ name' ∈ Path.components path := by
      rintro ⟨_, ⟨⟩, -⟩
    constructor
    · intro exact
      refine ⟨fun _ below => nothing (exact.2 below), ?_⟩
      rintro _ ⟨⟩
    · rintro ⟨notBelow, -⟩
      have several : 1 < (name :: second :: more).length := by simp
      exact iff_of_false nothing (notBelow several)

/-- The pattern `vendor/**` excludes what lies below a directory `vendor`. -/
theorem vendor_pattern_excludes :
    ["vendor"] ≠ [] ∧ Path.LiesBelow ["vendor"] "app/vendor/gem/a.sexp" ∧
      isExcluded ["/".intercalate ["vendor"] ++ "/**"] "app/vendor/gem/a.sexp" = true ∧
      isExcluded ["/".intercalate ["vendor"] ++ "/**"] "app/vendors/a.sexp" = false := by
  have below : Path.LiesBelow ["vendor"] "app/vendor/gem/a.sexp" :=
    ⟨["app"], ["gem", "a.sexp"], by simp, rfl⟩
  obtain ⟨-, inside⟩ := directory_pattern_exact_iff ["vendor"] (by simp) "app/vendor/gem/a.sexp"
  obtain ⟨outside, -⟩ := directory_pattern_exact_iff ["vendor"] (by simp) "app/vendors/a.sexp"
  refine ⟨by simp, below, ?_, ?_⟩
  · refine (inside.2 ⟨fun several => absurd several (Nat.lt_irrefl 1), ?_⟩).2 below
    intro _ _ _
    exact below
  · rw [Bool.eq_false_iff]
    intro excluded
    obtain ⟨_, ⟨⟩, mem⟩ := outside.1 excluded
    revert mem
    decide

/-- The pattern `src/gen/**` does not exclude what lies below `src/gen`, and the pattern `gen/**`
excludes a file of that name, which lies below no such directory. -/
theorem nested_directory_not_excluded :
    (Path.LiesBelow ["src", "gen"] "lib/src/gen/a.sexp" ∧
      isExcluded ["/".intercalate ["src", "gen"] ++ "/**"] "lib/src/gen/a.sexp" = false) ∧
    ¬ Path.LiesBelow ["gen"] "lib/gen" ∧
      isExcluded ["/".intercalate ["gen"] ++ "/**"] "lib/gen" = true := by
  have below : Path.LiesBelow ["src", "gen"] "lib/src/gen/a.sexp" :=
    ⟨["lib"], ["a.sexp"], by simp, rfl⟩
  refine ⟨⟨below, by decide⟩, ?_, by decide⟩
  rintro ⟨before, after, more, parts⟩
  have parts' : ["lib", "gen"] = before ++ ["gen"] ++ after := parts
  rcases before with _ | ⟨first, _ | ⟨second, before⟩⟩
  · simp at parts'
  · simp [Ne.symm more] at parts'
  · simp at parts'

end CodeSmell
