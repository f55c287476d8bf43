import CodeSmell.Files.Disk
import CodeSmell.Proofs.Fields

/-!
# Reading what was written

A file that has just been written is found under the same path, with what was written
(`Disk.read_writeFile`). Writing puts one entry at a location. It replaces no directory, and so all
directories that lead there, and their names, are still found (`Disk.resolve_put`).
-/

set_option autoImplicit false

namespace CodeSmell

/-! ## Locations -/

namespace Entry

variable {e : Entry} {entries : List (String × Entry)}

theorem get?_put (new : Entry) (location : List String) (e : Entry) :
    (put new location e).get? location = some new := by
  induction location generalizing e with
  | nil => rfl
  | cons name names ih =>
    cases e with
    | file content =>
      rw [put, get?, List.lookup_cons_self]
      exact ih _
    | directory entries =>
      rw [put, get?, lookup_insertField_self]
      exact ih _

/-- A directory that holds a directory's place in a tree with one more entry: its names stay. -/
theorem get?_put_of_directory (new : Entry) {location p : List String}
    (found : e.get? p = some (.directory entries)) (apart : ¬ location <+: p) :
    ∃ entries', (put new location e).get? p = some (.directory entries') ∧
      ∀ name, (entries.lookup name).isSome → (entries'.lookup name).isSome := by
  induction p generalizing location e with
  | nil =>
    obtain rfl := Option.some.inj found
    cases location with
    | nil => exact absurd List.nil_prefix apart
    | cons name names =>
      refine ⟨_, rfl, fun other known => ?_⟩
      by_cases same : other = name
      · rw [same, lookup_insertField_self]
        rfl
      · rwa [lookup_insertField_of_ne same]
  | cons name p ih =>
    cases location with
    | nil => exact absurd List.nil_prefix apart
    | cons name' names =>
      cases e with
      | file content => cases found
      | directory inner =>
        cases listed : inner.lookup name with
        | none => simp only [get?, listed, reduceCtorEq] at found
        | some child =>
          simp only [get?, listed] at found
          by_cases same : name = name'
          · subst same
            rw [put, get?, lookup_insertField_self, listed, Option.getD_some]
            exact ih found fun leads => apart ((List.prefix_cons_inj name).2 leads)
          · refine ⟨entries, ?_, fun _ known => known⟩
            rw [put, get?, lookup_insertField_of_ne same, listed]
            exact found

/-- Whatever leads to a directory is one. -/
theorem get?_of_prefix {location p : List String} (leads : location <+: p)
    (found : e.get? p = some (.directory entries)) :
    ∃ entries', e.get? location = some (.directory entries') := by
  induction location generalizing p e with
  | nil =>
    cases e with
    | directory inner => exact ⟨inner, rfl⟩
    | file content =>
      cases p with
      | nil => cases found
      | cons name p => cases found
  | cons name names ih =>
    obtain ⟨p', rfl⟩ := leads
    cases e with
    | file content => cases found
    | directory inner =>
      rw [List.cons_append, get?] at found
      rw [get?]
      cases listed : inner.lookup name with
      | none => simp only [listed, reduceCtorEq] at found
      | some child =>
        simp only [listed] at found
        exact ih (List.prefix_append names p') found

theorem get?_concat {location : List String} {name : String} {found : Entry}
    (there : e.get? (location ++ [name]) = some found) :
    ∃ entries, e.get? location = some (.directory entries) ∧ entries.lookup name = some found := by
  induction location generalizing e with
  | nil =>
    cases e with
    | file content => cases there
    | directory entries =>
      rw [List.nil_append, get?] at there
      split at there
      · obtain rfl := Option.some.inj there
        exact ⟨entries, rfl, ‹_›⟩
      · cases there
  | cons outer location ih =>
    cases e with
    | file content => cases there
    | directory entries =>
      rw [List.cons_append, get?] at there
      rw [get?]
      split at there
      · exact ih there
      · cases there

end Entry

/-! ## Paths -/

namespace Path

theorem split_ne_nil (separator : Char) (cs : List Char) : split separator cs ≠ [] := by
  cases cs with
  | nil => exact List.cons_ne_nil _ _
  | cons c cs =>
    rw [split]
    split
    · exact List.cons_ne_nil _ _
    · split <;> exact List.cons_ne_nil _ _

theorem split_append (separator : Char) (front back : List Char) :
    split separator (front ++ separator :: back)
      = split separator front ++ split separator back := by
  induction front with
  | nil => simp [split]
  | cons c front ih =>
    rw [List.cons_append, split, split, ih]
    split
    · rfl
    · cases whole : split separator front with
      | nil => exact absurd whole (split_ne_nil separator front)
      | cons part parts => rfl

theorem split_eq_singleton {separator : Char} {cs : List Char} (absent : separator ∉ cs) :
    split separator cs = [cs] := by
  induction cs with
  | nil => rfl
  | cons c cs ih =>
    rw [split, if_neg (List.ne_of_not_mem_cons absent).symm,
      ih (List.not_mem_of_not_mem_cons absent)]

end Path

namespace Disk

variable {d : Disk} {new : Entry} {location spot target names more : List String}

theorem resolve_append :
    d.resolve location (names ++ more) = (d.resolve location names).bind (d.resolve · more) := by
  induction names generalizing location with
  | nil => rfl
  | cons name names ih =>
    rw [List.cons_append, resolve, resolve]
    split
    · split
      · exact ih
      · split
        · exact ih
        · split
          · exact ih
          · rfl
    · rfl

theorem resolve_put (free : ∀ entries, d.root.get? spot ≠ some (.directory entries))
    (resolved : d.resolve location names = .ok target) :
    ({ d with root := Entry.put new spot d.root } : Disk).resolve location names = .ok target := by
  induction names generalizing location with
  | nil => exact resolved
  | cons name names ih =>
    rw [resolve] at resolved
    split at resolved
    · rename_i entries found
      have apart : ¬ spot <+: location := fun leads => by
        obtain ⟨entries', there⟩ := Entry.get?_of_prefix leads found
        exact free entries' there
      obtain ⟨entries', found', kept⟩ := Entry.get?_put_of_directory new found apart
      rw [resolve, found']
      dsimp only
      split at resolved
      · rw [if_pos ‹_›]
        exact ih resolved
      · rw [if_neg ‹_›]
        split at resolved
        · rw [if_pos ‹_›]
          exact ih resolved
        · rw [if_neg ‹_›]
          split at resolved
          · rw [if_pos (kept name ‹_›)]
            exact ih resolved
          · cases resolved
    · cases resolved

/-- A path without slashes at its end: what stands in front of its last name is nothing or ends in a
slash. -/
theorem splitLast_eq {path front name : String} (parts : splitLast path = (front, name, false)) :
    path.toList = front.toList ++ name.toList ∧ '/' ∉ name.toList ∧
      (front = "" ∨ ∃ cs, front.toList = cs ++ ['/']) := by
  simp only [splitLast, Prod.mk.injEq, decide_eq_false_iff_not, Nat.not_lt] at parts
  obtain ⟨rfl, rfl, unslashed⟩ := parts
  have whole : path.toList.reverse.dropWhile (· = '/') = path.toList.reverse :=
    (List.dropWhile_suffix _).eq_of_length_le unslashed
  simp only [whole, String.toList_ofList]
  refine ⟨?_, ?_, ?_⟩
  · rw [← List.reverse_append, List.takeWhile_append_dropWhile, List.reverse_reverse]
  · intro mem
    have other := List.all_eq_true.1 List.all_takeWhile _ (List.mem_reverse.1 mem)
    cases other
  · cases rest : path.toList.reverse.dropWhile (· ≠ '/') with
    | nil => exact .inl rfl
    | cons c rest' =>
      have slash := List.head?_dropWhile_not (· ≠ '/') path.toList.reverse
      rw [rest] at slash
      obtain rfl : c = '/' := by simpa using slash
      exact .inr ⟨rest'.reverse, List.reverse_cons⟩

theorem origin_eq {path front : String} {cs rest : List Char} (ends : front.toList = cs ++ ['/'])
    (whole : path.toList = front.toList ++ rest) : d.origin front = d.origin path := by
  rw [origin, origin, whole, ends]
  cases cs <;> rfl

/-- A location that has to be that of a directory is one. -/
theorem eq_ok_of_directory {start : Except FileFault (List String)}
    (found : (do
      let start ← start
      match d.root.get? start with
      | some (.directory _) => .ok start
      | some (.file _) => .error .notADirectory
      | none => .error .missing) = Except.ok location) :
    start = .ok location ∧ ∃ entries, d.root.get? location = some (.directory entries) := by
  cases start with
  | error fault => cases found
  | ok start =>
    simp only [bind, Except.bind] at found
    split at found
    · obtain rfl := Except.ok.inj found
      exact ⟨rfl, _, ‹_›⟩
    · cases found
    · cases found

/-- The last name of a path stands in a directory, to which the part in front of it leads. -/
theorem locateParent_eq_ok {path front name : String} {slashed : Bool}
    (parts : splitLast path = (front, name, slashed)) (found : d.locateParent path = .ok location) :
    (if front = "" then .ok (d.origin path) else d.locate front) = .ok location ∧
      ∃ entries, d.root.get? location = some (.directory entries) := by
  simp only [locateParent, parts] at found
  split at found
  · rw [if_pos ‹_›]
    exact eq_ok_of_directory found
  · rw [if_neg ‹_›]
    exact eq_ok_of_directory found

/-- The components in front of the last name of a path lead to the directory in which it stands. -/
theorem resolve_of_locateParent {path front name : String}
    (parts : splitLast path = (front, name, false)) (found : d.locateParent path = .ok location) :
    ∃ names, Path.components path = names ++ [name] ∧
      d.resolve (d.origin path) names = .ok location := by
  obtain ⟨whole, single, edge⟩ := splitLast_eq parts
  obtain ⟨start, entries, there⟩ := locateParent_eq_ok parts found
  have last : (Path.split '/' name.toList).map String.ofList = [name] := by
    rw [Path.split_eq_singleton single, List.map_singleton, String.ofList_toList]
  rcases edge with rfl | ⟨cs, ends⟩
  · rw [if_pos rfl] at start
    refine ⟨[], ?_, start⟩
    rw [Path.components, whole, String.toList_empty, List.nil_append]
    exact last
  · have nonempty : front ≠ "" := by
      rintro rfl
      exact List.append_ne_nil_of_right_ne_nil cs (List.cons_ne_nil _ _) ends.symm
    refine ⟨(Path.split '/' cs).map String.ofList, ?_, ?_⟩
    · rw [Path.components, whole, ends, List.append_assoc, List.singleton_append, Path.split_append,
        List.map_append, last]
    · -- the slash at the end of the front part adds an empty component
      rw [if_neg nonempty, locate, if_neg nonempty, origin_eq ends whole, Path.components, ends,
        Path.split_append, List.map_append, resolve_append] at start
      cases led : d.resolve (d.origin path) ((Path.split '/' cs).map String.ofList) with
      | error fault =>
        rw [led] at start
        cases start
      | ok before =>
        rw [led] at start
        have empty : d.resolve before [""] = .ok location := start
        rw [resolve] at empty
        split at empty
        · rw [if_pos (.inl rfl), resolve] at empty
          exact empty
        · cases empty

/-- What it takes to write a file: a directory for it, a name of its own, and no directory of that
name. -/
theorem writeFile_eq_ok {d' : Disk} {path : String} {content : Text}
    (written : d.writeFile path content = .ok d') :
    path ≠ "" ∧ ∃ front name location, splitLast path = (front, name, false) ∧
      d.locateParent path = .ok location ∧ ¬ (name = "" ∨ name = "." ∨ name = "..") ∧
      (∀ entries, d.root.get? (location ++ [name]) ≠ some (.directory entries)) ∧
      d' = { d with root := Entry.put (.file content) (location ++ [name]) d.root } := by
  unfold writeFile at written
  split at written
  · cases written
  · refine ⟨‹_›, ?_⟩
    obtain ⟨front, name, slashed, parts⟩ :
        ∃ front name slashed, splitLast path = (front, name, slashed) := ⟨_, _, _, rfl⟩
    cases found : d.locateParent path with
    | error fault =>
      rw [found] at written
      cases written
    | ok location =>
      rw [found, parts] at written
      simp only [Except.mapError, bind, Except.bind] at written
      split at written
      · cases written
      · rename_i allowed
        obtain rfl := Except.ok.inj written
        simp only [not_or, Bool.not_eq_true] at allowed
        obtain ⟨rfl, named, notSame, notAbove, notDirectory⟩ := allowed
        refine ⟨front, name, location, parts, rfl, ?_, ?_, rfl⟩
        · simp only [not_or]
          exact ⟨named, notSame, notAbove⟩
        · intro entries taken
          rw [taken] at notDirectory
          cases notDirectory

/-- Whether a file can be written does not depend on what is written. -/
theorem writeFile_cases (d : Disk) (path : String) :
    (∃ e, ∀ content, d.writeFile path content = .error e) ∨
      ∀ content, ∃ d', d.writeFile path content = .ok d' := by
  unfold writeFile
  by_cases nameless : path = ""
  · simp only [if_pos nameless]
    exact .inl ⟨_, fun _ => rfl⟩
  · simp only [if_neg nameless]
    cases d.locateParent path with
    | error fault => exact .inl ⟨_, fun _ => rfl⟩
    | ok location =>
      simp only [Except.mapError, bind, Except.bind]
      split
      · exact .inl ⟨_, fun _ => rfl⟩
      · exact .inr fun _ => ⟨_, rfl⟩

/-- A file that was written is read as it was written. -/
theorem read_writeFile {d' : Disk} {path : String} {content : Text}
    (written : d.writeFile path content = .ok d') : d'.read path = .ok content := by
  obtain ⟨nonempty, front, name, location, parts, found, own, free, rfl⟩ := writeFile_eq_ok written
  obtain ⟨names, components, leads⟩ := resolve_of_locateParent parts found
  let d' : Disk := { d with root := Entry.put (.file content) (location ++ [name]) d.root }
  have leads' : d'.resolve (d'.origin path) names = .ok location := resolve_put free leads
  have there : d'.root.get? (location ++ [name]) = some (.file content) := Entry.get?_put _ _ _
  obtain ⟨entries, directory, listed⟩ := Entry.get?_concat there
  have last : d'.resolve location [name] = .ok (location ++ [name]) := by
    obtain ⟨named, notSame, notAbove⟩ := not_or.1 own |>.imp_right not_or.1
    rw [resolve, directory]
    simp [named, notSame, notAbove, listed, resolve]
  have located : d'.locate path = .ok (location ++ [name]) := by
    rw [locate, if_neg nonempty, components, resolve_append, leads']
    exact last
  have found' : d'.find path = .ok (.file content) := by
    rw [find, located]
    simp only [bind, Except.bind]
    rw [there]
  change d'.read path = .ok content
  rw [read, findFor, found']
  rfl

end Disk

end CodeSmell
