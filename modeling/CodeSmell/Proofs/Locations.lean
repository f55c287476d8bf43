import CodeSmell.Proofs.DirectoryExclusion
import Mathlib.Data.List.Nodup

/-!
# Locations and their paths

What lies below a directory is found at a location, which is a list of names, and a search gives it
the path that is made by joining these names to the path of the directory (`Path.below`). Joining
makes paths as short as possible, so the text of the directory's path may be lost: below `./lib/..`
the name `app` has the path `app`. What remains is what the path resolves to. Names are put on top
of it (`Path.resolved_join`), and therefore different locations have different paths
(`Path.below_injective`).

`Entry.mem_walk_iff` says which entries a search visits: those at locations to which open
directories lead.
-/

set_option autoImplicit false

namespace CodeSmell

/-! ## What a path resolves to -/

namespace Path

/-- A name that something in a directory can have. -/
def IsName (name : String) : Prop :=
  name ≠ "" ∧ name ≠ "." ∧ name ≠ ".." ∧ '/' ∉ name.toList

instance (name : String) : Decidable (IsName name) :=
  inferInstanceAs (Decidable (name ≠ "" ∧ name ≠ "." ∧ name ≠ ".." ∧ '/' ∉ name.toList))

/-- Whether a path starts at the topmost directory. -/
def isRooted (path : String) : Bool := path.toList.head? == some '/'

/-- The names that are left when a path is resolved, the last one first. -/
def resolved (path : String) : List String :=
  (components path).foldl (resolve (isRooted path)) []

/-- The text of a resolved path. -/
def body (names : List String) : String := "/".intercalate names.reverse

theorem clean_eq (path : String) :
    clean path = if isRooted path then "/" ++ body (resolved path)
      else if body (resolved path) = "" then "." else body (resolved path) := rfl

/-- Names that resolving leaves as they are. -/
inductive IsResolved (rooted : Bool) : List String → Prop
  | nil : IsResolved rooted []
  | cons {name : String} {names : List String} (rest : IsResolved rooted names)
      (filled : name ≠ "") (single : '/' ∉ name.toList)
      (stays : resolve rooted names name = name :: names) : IsResolved rooted (name :: names)

variable {rooted : Bool} {names : List String} {path name : String}

theorem isResolved_resolve (done : IsResolved rooted names) (single : '/' ∉ name.toList) :
    IsResolved rooted (resolve rooted names name) := by
  by_cases ignored : name = "" ∨ name = "."
  · rw [resolve.eq_def, if_pos ignored]
    exact done
  · by_cases up : name = ".."
    · subst up
      cases done with
      | nil =>
        cases rooted with
        | true => exact .nil
        | false => exact .cons .nil (by decide) single rfl
      | @cons last earlier rest filled inLast stays =>
        by_cases above : last = ".."
        · subst above
          exact .cons (.cons rest filled inLast stays) (by decide) single rfl
        · have dropped : resolve rooted (last :: earlier) ".." = earlier := by
            simp [resolve, above]
          rw [dropped]
          exact rest
    · have stays : resolve rooted names name = name :: names := by
        rw [resolve.eq_def, if_neg ignored, if_neg up]
      rw [stays]
      exact .cons done (fun empty => ignored (.inl empty)) single stays

theorem isResolved_foldl {parts : List String} (single : ∀ part ∈ parts, '/' ∉ part.toList)
    (done : IsResolved rooted names) : IsResolved rooted (parts.foldl (resolve rooted) names) := by
  induction parts generalizing names with
  | nil => exact done
  | cons part parts ih =>
    apply ih
    · intro other mem
      exact single other (List.mem_cons_of_mem _ mem)
    · exact isResolved_resolve done (single part List.mem_cons_self)

theorem isResolved_resolved (path : String) : IsResolved (isRooted path) (resolved path) :=
  isResolved_foldl (fun _ mem => slash_notMem_of_mem_components mem) .nil

namespace IsResolved

theorem foldl_reverse (done : IsResolved rooted names) :
    names.reverse.foldl (resolve rooted) [] = names := by
  induction done with
  | nil => rfl
  | cons rest filled single stays ih =>
    rw [List.reverse_cons, List.foldl_append, ih]
    exact stays

theorem filled (done : IsResolved rooted names) : ∀ name ∈ names, name ≠ "" := by
  induction done with
  | nil =>
    intro name mem
    cases mem
  | cons rest filled single stays ih => exact List.forall_mem_cons.2 ⟨filled, ih⟩

theorem single (done : IsResolved rooted names) : ∀ name ∈ names, '/' ∉ name.toList := by
  induction done with
  | nil =>
    intro name mem
    cases mem
  | cons rest filled single stays ih => exact List.forall_mem_cons.2 ⟨single, ih⟩

end IsResolved

/-! ## Components of texts that were put together -/

theorem split_intercalate {separator : Char} {parts : List (List Char)} (given : parts ≠ [])
    (absent : ∀ part ∈ parts, separator ∉ part) :
    split separator ([separator].intercalate parts) = parts := by
  induction parts with
  | nil => exact absurd rfl given
  | cons part parts ih =>
    obtain ⟨here, below⟩ := List.forall_mem_cons.1 absent
    cases parts with
    | nil => rw [List.intercalate_singleton, split_eq_singleton here]
    | cons next parts =>
      rw [List.intercalate_cons_cons, List.append_assoc, List.singleton_append, split_append,
        split_eq_singleton here, ih (List.cons_ne_nil _ _) below]
      rfl

theorem components_body (given : names ≠ []) (single : ∀ name ∈ names, '/' ∉ name.toList) :
    components (body names) = names.reverse := by
  have parts : split '/' (body names).toList = names.reverse.map String.toList := by
    rw [body, String.toList_intercalate]
    apply split_intercalate
    · rw [ne_eq, List.map_eq_nil_iff, List.reverse_eq_nil_iff]
      exact given
    · intro part mem
      obtain ⟨name, listed, rfl⟩ := List.mem_map.1 mem
      exact single name (List.mem_reverse.1 listed)
  rw [components, parts, List.map_map]
  simp [Function.comp_def]

/-- The text of a resolved path resolves to it. -/
theorem foldl_components_body (done : IsResolved rooted names) :
    (components (body names)).foldl (resolve rooted) [] = names := by
  by_cases given : names = []
  · subst given
    rfl
  · rw [components_body given done.single, done.foldl_reverse]

theorem components_slash_append (text : String) :
    components ("/" ++ text) = "" :: components text := by
  rw [components, String.toList_append]
  rfl

/-- The text of a resolved path starts with a name. -/
theorem not_isRooted_body (done : IsResolved rooted names) : isRooted (body names) = false := by
  rw [Bool.eq_false_iff]
  intro starts
  obtain ⟨rest, whole⟩ := List.head?_eq_some_iff.1 (eq_of_beq starts)
  have text : body names = "/" ++ String.ofList rest := by
    rw [← String.toList_inj, whole, String.toList_append]
    exact congrArg ('/' :: ·) String.toList_ofList.symm
  by_cases given : names = []
  · subst given
    cases whole
  · have first : "" ∈ names.reverse := by
      rw [← components_body given done.single, text, components_slash_append]
      exact List.mem_cons_self
    exact done.filled "" (List.mem_reverse.1 first) rfl

theorem body_eq_empty (done : IsResolved rooted names) (empty : body names = "") : names = [] := by
  by_contra given
  have parts := components_body given done.single
  rw [empty] at parts
  have first : "" ∈ names.reverse := parts ▸ List.mem_cons_self
  exact done.filled "" (List.mem_reverse.1 first) rfl

theorem isRooted_slash_append (text : String) : isRooted ("/" ++ text) = true := by
  rw [isRooted, String.toList_append]
  rfl

/-- A path and the shortest path of the same meaning resolve to the same names. -/
theorem resolved_clean (path : String) :
    isRooted (clean path) = isRooted path ∧ resolved (clean path) = resolved path := by
  have done := isResolved_resolved path
  rw [clean_eq]
  split
  next starts =>
    rw [starts] at done ⊢
    refine ⟨isRooted_slash_append _, ?_⟩
    rw [resolved, isRooted_slash_append, components_slash_append, List.foldl_cons]
    exact foldl_components_body done
  next starts =>
    rw [Bool.not_eq_true] at starts
    rw [starts] at done ⊢
    split
    next empty =>
      rw [body_eq_empty done empty]
      decide
    next =>
      refine ⟨not_isRooted_body done, ?_⟩
      rw [resolved, not_isRooted_body done]
      exact foldl_components_body done

theorem clean_ne_empty (path : String) : clean path ≠ "" := by
  rw [clean_eq]
  split
  · intro empty
    have starts := isRooted_slash_append (body (resolved path))
    rw [empty] at starts
    cases starts
  · split
    · decide
    · assumption

/-! ## Paths below a path -/

theorem resolve_of_isName (proper : IsName name) : resolve rooted names name = name :: names := by
  obtain ⟨filled, notHere, notAbove, -⟩ := proper
  simp [resolve, filled, notHere, notAbove]

theorem join_eq_clean (given : path ≠ "") (proper : IsName name) :
    join path name = clean (path ++ "/" ++ name) := by
  rw [join, if_neg given, if_neg proper.1]

theorem join_ne_empty (given : path ≠ "") (proper : IsName name) : join path name ≠ "" := by
  rw [join_eq_clean given proper]
  exact clean_ne_empty _

/-- A name that is joined to a path is put on top of what the path resolves to. -/
theorem resolved_join (given : path ≠ "") (proper : IsName name) :
    resolved (join path name) = name :: resolved path := by
  have starts : isRooted (path ++ "/" ++ name) = isRooted path := by
    have filled : path.toList ≠ [] := fun empty => given (String.toList_eq_nil_iff.1 empty)
    rw [isRooted, isRooted, String.toList_append, String.toList_append, List.append_assoc,
      List.head?_append_of_ne_nil _ filled]
  have parts : components (path ++ "/" ++ name) = components path ++ [name] := by
    have slash : (path ++ "/" ++ name).toList = path.toList ++ '/' :: name.toList := by
      rw [String.toList_append, String.toList_append, List.append_assoc]
      rfl
    rw [components, slash, split_append, split_eq_singleton proper.2.2.2, List.map_append,
      List.map_singleton, String.ofList_toList]
    rfl
  rw [join_eq_clean given proper, (resolved_clean _).2, resolved, starts, parts,
    List.foldl_append]
  exact resolve_of_isName proper

/-- The path of what lies at a location below a directory with a given path. -/
def below (path : String) (location : List String) : String := location.foldl join path

theorem resolved_below {location : List String} (given : path ≠ "")
    (proper : ∀ name ∈ location, IsName name) :
    resolved (below path location) = location.reverse ++ resolved path := by
  induction location generalizing path with
  | nil => rfl
  | cons name location ih =>
    obtain ⟨here, further⟩ := List.forall_mem_cons.1 proper
    have rest := ih (join_ne_empty given here) further
    rw [resolved_join given here] at rest
    rw [List.reverse_cons, List.append_assoc]
    exact rest

/-- Different locations have different paths. -/
theorem below_injective {location location' : List String} (given : path ≠ "")
    (proper : ∀ name ∈ location, IsName name) (proper' : ∀ name ∈ location', IsName name)
    (same : below path location = below path location') : location = location' := by
  have names := congrArg resolved same
  rw [resolved_below given proper, resolved_below given proper', List.append_left_inj] at names
  exact List.reverse_injective names

end Path

/-! ## Entries at locations -/

namespace Entry

/-- What holds of files, and of a directory if it holds of all that is in it, holds of all
entries. -/
@[elab_as_elim]
theorem entry_induction {motive : Entry → Prop} (file : ∀ content, motive (.file content))
    (directory : ∀ entries, (∀ entry ∈ entries, motive entry.2) → motive (.directory entries)) :
    ∀ e, motive e
  | .file content => file content
  | .directory entries => directory entries fun entry _ => entry_induction file directory entry.2
termination_by e => sizeOf e
decreasing_by
  have inList := List.sizeOf_lt_of_mem ‹entry ∈ entries›
  have inPair : sizeOf entry.2 < sizeOf entry := by
    rw [Prod.mk.sizeOf_spec entry.1 entry.2]
    omega
  rw [Entry.directory.sizeOf_spec]
  omega

variable {e found : Entry} {entries : List (String × Entry)} {location : List String}

theorem get?_append (front rest : List String) (e : Entry) :
    e.get? (front ++ rest) = (e.get? front).bind (get? rest) := by
  induction front generalizing e with
  | nil => rfl
  | cons name front ih =>
    cases e with
    | file content => rfl
    | directory entries =>
      rw [List.cons_append, get?, get?]
      cases entries.lookup name with
      | none => rfl
      | some inner => exact ih inner

theorem get?_directory_cons {name : String} :
    (directory entries).get? (name :: location) = some found ↔
      ∃ inner, entries.lookup name = some inner ∧ inner.get? location = some found := by
  rw [get?]
  cases entries.lookup name with
  | none => simp
  | some inner => simp

/-- In every directory the names can be names, and they differ. -/
def WellNamed (e : Entry) : Prop :=
  ∀ location entries, e.get? location = some (.directory entries) →
    (entries.map Prod.fst).Nodup ∧ ∀ name ∈ entries.map Prod.fst, Path.IsName name

theorem wellNamed_file (content : Text) : (file content).WellNamed := by
  intro location entries there
  cases location with
  | nil => cases there
  | cons name location => cases there

namespace WellNamed

theorem get? (named : e.WellNamed) (there : e.get? location = some found) : found.WellNamed := by
  intro further entries inside
  apply named (location ++ further)
  rw [get?_append, there]
  exact inside

/-- What a directory holds is found under its name. -/
theorem lookup_iff (named : (directory entries).WellNamed) {name : String} :
    entries.lookup name = some found ↔ (name, found) ∈ entries :=
  lookup_eq_some_iff_mem (named [] entries rfl).1

theorem of_mem (named : (directory entries).WellNamed) {entry : String × Entry}
    (mem : entry ∈ entries) : Path.IsName entry.1 ∧ entry.2.WellNamed := by
  constructor
  · exact (named [] entries rfl).2 entry.1 (List.mem_map_of_mem mem)
  · have there : (directory entries).get? [entry.1] = some entry.2 :=
      get?_directory_cons.2 ⟨entry.2, named.lookup_iff.2 mem, rfl⟩
    exact named.get? there

/-- A location at which there is something is made of names. -/
theorem isName_of_get? (named : e.WellNamed) (there : e.get? location = some found) :
    ∀ name ∈ location, Path.IsName name := by
  induction location generalizing e with
  | nil =>
    intro name mem
    cases mem
  | cons first location ih =>
    cases e with
    | file content => cases there
    | directory entries =>
      obtain ⟨inner, listed, inside⟩ := get?_directory_cons.1 there
      obtain ⟨proper, innerNamed⟩ := named.of_mem (named.lookup_iff.1 listed)
      exact List.forall_mem_cons.2 ⟨proper, ih innerNamed inside⟩

end WellNamed

theorem wellNamed_directory_iff :
    (directory entries).WellNamed ↔ (entries.map Prod.fst).Nodup ∧
      ∀ entry ∈ entries, Path.IsName entry.1 ∧ entry.2.WellNamed := by
  constructor
  · intro named
    exact ⟨(named [] entries rfl).1, fun entry mem => named.of_mem mem⟩
  · rintro ⟨distinct, proper⟩ location inner there
    cases location with
    | nil =>
      obtain rfl := directory.inj (Option.some.inj there)
      refine ⟨distinct, ?_⟩
      intro name mem
      obtain ⟨entry, listed, rfl⟩ := List.mem_map.1 mem
      exact (proper entry listed).1
    | cons name location =>
      obtain ⟨child, listed, inside⟩ := get?_directory_cons.1 there
      exact (proper (name, child) ((lookup_eq_some_iff_mem distinct).1 listed)).2 location inner
        inside

/-! ## Searches -/

theorem walkEntries_eq_flatMap (isOpen : String → Bool) (path : String)
    (entries : List (String × Entry)) :
    walkEntries isOpen path entries
      = entries.flatMap fun entry => entry.2.walk isOpen (Path.join path entry.1) := by
  induction entries with
  | nil => rfl
  | cons entry entries ih =>
    rw [walkEntries, walkEntry, ih, List.flatMap_cons]

/-- The directories on the way to a location are open, the one where the way starts included. -/
def IsOpenWay (isOpen : String → Bool) (path : String) (location : List String) : Prop :=
  ∀ front rest, rest ≠ [] → location = front ++ rest → isOpen (Path.below path front) = true

variable {isOpen isOpen' : String → Bool} {path : String}

theorem isOpenWay_nil : IsOpenWay isOpen path [] := by
  intro front rest more whole
  exact absurd (List.append_eq_nil_iff.1 whole.symm).2 more

theorem isOpenWay_cons {name : String} :
    IsOpenWay isOpen path (name :: location) ↔
      isOpen path = true ∧ IsOpenWay isOpen (Path.join path name) location := by
  constructor
  · intro way
    refine ⟨way [] (name :: location) (List.cons_ne_nil _ _) rfl, ?_⟩
    rintro front rest more rfl
    exact way (name :: front) rest more rfl
  · rintro ⟨here, further⟩ front rest more whole
    cases front with
    | nil => exact here
    | cons first front =>
      obtain ⟨rfl, whole'⟩ := List.cons_eq_cons.1 whole
      exact further front rest more whole'

/-- A search visits what lies at locations to which open directories lead; a directory is visited
only if it is open itself. -/
theorem mem_walk_iff (named : e.WellNamed) {visited : String × Entry} :
    visited ∈ e.walk isOpen path ↔
      ∃ location, e.get? location = some visited.2 ∧ visited.1 = Path.below path location ∧
        IsOpenWay isOpen path location ∧
        (visited.2.isDirectory = true → isOpen visited.1 = true) := by
  induction e using entry_induction generalizing path with
  | file content =>
    rw [walk, List.mem_singleton]
    constructor
    · rintro rfl
      refine ⟨[], rfl, rfl, isOpenWay_nil, ?_⟩
      intro isDirectory
      cases isDirectory
    · rintro ⟨location, there, place, -, -⟩
      cases location with
      | nil => exact Prod.ext place (Option.some.inj there).symm
      | cons name location => cases there
  | directory entries ih =>
    rw [walk]
    split
    next here =>
      rw [List.mem_cons, walkEntries_eq_flatMap, List.mem_flatMap]
      constructor
      · rintro (rfl | ⟨entry, listed, inside⟩)
        · exact ⟨[], rfl, rfl, isOpenWay_nil, fun _ => here⟩
        · obtain ⟨proper, innerNamed⟩ := named.of_mem listed
          obtain ⟨location, there, place, way, itself⟩ := (ih entry listed innerNamed).1 inside
          refine ⟨entry.1 :: location, ?_, place, isOpenWay_cons.2 ⟨here, way⟩, itself⟩
          exact get?_directory_cons.2 ⟨entry.2, named.lookup_iff.2 listed, there⟩
      · rintro ⟨location, there, place, way, itself⟩
        cases location with
        | nil => exact .inl (Prod.ext place (Option.some.inj there).symm)
        | cons name location =>
          obtain ⟨inner, found, inside⟩ := get?_directory_cons.1 there
          have listed := named.lookup_iff.1 found
          refine .inr ⟨(name, inner), listed, ?_⟩
          exact (ih (name, inner) listed (named.of_mem listed).2).2
            ⟨location, inside, place, (isOpenWay_cons.1 way).2, itself⟩
    next closed =>
      -- every way leads through the directory itself, or ends there
      refine iff_of_false List.not_mem_nil ?_
      rintro ⟨location, there, place, way, itself⟩
      cases location with
      | nil =>
        have isDirectory : visited.2.isDirectory = true := by
          rw [← Option.some.inj there]
          rfl
        have opened := itself isDirectory
        rw [place] at opened
        exact closed opened
      | cons name location => exact closed (isOpenWay_cons.1 way).1

/-- A search that opens more directories visits all that another visits, in the same order. -/
theorem walk_sublist (wider : ∀ path, isOpen path = true → isOpen' path = true) (e : Entry)
    (path : String) : (e.walk isOpen path).Sublist (e.walk isOpen' path) := by
  induction e using entry_induction generalizing path with
  | file content => exact List.Sublist.refl _
  | directory entries ih =>
    rw [walk, walk]
    split
    next here =>
      rw [if_pos (wider path here)]
      apply List.Sublist.cons_cons
      rw [walkEntries_eq_flatMap, walkEntries_eq_flatMap]
      induction entries with
      | nil => exact List.Sublist.refl _
      | cons entry entries ihEntries =>
        obtain ⟨first, others⟩ := List.forall_mem_cons.1 ih
        rw [List.flatMap_cons, List.flatMap_cons]
        exact (first _).append (ihEntries others)
    next => exact List.nil_sublist _

/-- No path is visited twice. -/
theorem nodup_walk (named : e.WellNamed) (given : path ≠ "") :
    ((e.walk isOpen path).map Prod.fst).Nodup := by
  induction e using entry_induction generalizing path with
  | file content => exact List.nodup_singleton _
  | directory entries ih =>
    -- the paths of what is visited in an entry start with its name
    have place : ∀ entry ∈ entries, ∀ other,
        other ∈ (entry.2.walk isOpen (Path.join path entry.1)).map Prod.fst →
          ∃ location, (∀ name ∈ entry.1 :: location, Path.IsName name) ∧
            other = Path.below path (entry.1 :: location) := by
      intro entry listed other mem
      obtain ⟨visited, inside, rfl⟩ := List.mem_map.1 mem
      obtain ⟨proper, innerNamed⟩ := named.of_mem listed
      obtain ⟨location, there, place, -, -⟩ := (mem_walk_iff innerNamed).1 inside
      exact ⟨location, List.forall_mem_cons.2 ⟨proper, innerNamed.isName_of_get? there⟩, place⟩
    rw [walk]
    split
    next =>
      rw [List.map_cons, walkEntries_eq_flatMap, List.map_flatMap, List.nodup_cons]
      constructor
      · intro again
        obtain ⟨entry, listed, mem⟩ := List.mem_flatMap.1 again
        obtain ⟨location, proper, same⟩ := place entry listed path mem
        have none : [] = entry.1 :: location :=
          Path.below_injective given (by simp) proper same
        cases none
      · rw [List.nodup_flatMap]
        constructor
        · intro entry listed
          obtain ⟨proper, innerNamed⟩ := named.of_mem listed
          exact ih entry listed innerNamed (Path.join_ne_empty given proper)
        · have distinct := List.pairwise_map.1 (named [] entries rfl).1
          refine distinct.imp_of_mem ?_
          intro entry entry' listed listed' different other mem mem'
          obtain ⟨location, proper, rfl⟩ := place entry listed other mem
          obtain ⟨location', proper', same⟩ := place entry' listed' _ mem'
          have locations := Path.below_injective given proper proper' same
          exact different (List.cons_eq_cons.1 locations).1
    next => exact List.nodup_nil

end Entry

/-- What is found under a path is somewhere on the disk. -/
theorem Disk.find_eq_ok {d : Disk} {path : String} {e : Entry} (found : d.find path = .ok e) :
    path ≠ "" ∧ ∃ location, d.root.get? location = some e := by
  constructor
  · rintro rfl
    cases found
  · rw [find] at found
    cases located : d.locate path with
    | error fault =>
      rw [located] at found
      cases found
    | ok location =>
      rw [located] at found
      refine ⟨location, ?_⟩
      cases there : d.root.get? location with
      | none =>
        simp only [bind, Except.bind, there, reduceCtorEq] at found
      | some other =>
        simp only [bind, Except.bind, there, Except.ok.injEq] at found
        rw [found]

end CodeSmell
