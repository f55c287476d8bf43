import CodeSmell.Proofs.Locations
import CodeSmell.Watcher

/-!
# Watched directories and collected files

A watcher searches a directory with stricter rules than those by which files are collected for
analysis: it leaves out more names, also where the search starts, and it leaves out directories that
the settings exclude. A directory that it opens is also opened when files are collected
(`isSearched_of_open`), so what it visits is part of what is visited there, in the same order.

`Watcher.addTree_of_collect` says how the two searches differ: the watcher sees the collected files
that are neither hidden nor left over by an editor, unless a directory on the way to them is left
out, and it knows afterwards the directories that are not left out and to which no such directory
leads.
-/

set_option autoImplicit false

namespace CodeSmell

/-- Whether a path is that of a hidden file. -/
def isHidden (path : String) : Bool := (Path.base path).toList.head? = some '.'

/-- Whether a path is that of an editor's leftover. -/
def isLeftover (path : String) : Bool :=
  leftoverEndings.any fun ending => ending.toList.isSuffixOf (Path.base path).toList

/-! ## Ways -/

namespace Entry

variable {e found : Entry} {isOpen : String → Bool} {root path : String} {location : List String}

/-- A directory lies on the way from an entry with the path `root` to something below it; the first
one on the way is the entry itself. -/
def OnTheWay (e : Entry) (root directory path : String) : Prop :=
  ∃ front rest, rest ≠ [] ∧ (e.get? (front ++ rest)).isSome ∧
    directory = Path.below root front ∧ path = Path.below root (front ++ rest)

/-- A directory lies at or below an entry with the path `root`. -/
def HasDirectory (e : Entry) (root path : String) : Prop :=
  ∃ location entries, e.get? location = some (.directory entries) ∧ path = Path.below root location

/-- A path stands for one location only, so the way to it is known from the path. -/
theorem isOpenWay_iff (named : e.WellNamed) (given : root ≠ "")
    (there : e.get? location = some found) :
    IsOpenWay isOpen root location ↔
      ∀ directory, e.OnTheWay root directory (Path.below root location) →
        isOpen directory = true := by
  constructor
  · rintro way _ ⟨front, rest, more, some, rfl, same⟩
    obtain ⟨other, there'⟩ := Option.isSome_iff_exists.1 some
    have whole : location = front ++ rest :=
      Path.below_injective given (named.isName_of_get? there) (named.isName_of_get? there') same
    exact way front rest more whole
  · rintro way front rest more rfl
    apply way
    exact ⟨front, rest, more, by rw [there]; rfl, rfl, rfl⟩

/-- The paths of the files that a search visits, as far as they are kept. -/
def filesIn (e : Entry) (isOpen keeps : String → Bool) (root : String) : List String :=
  ((e.walk isOpen root).filter fun visited =>
    !visited.2.isDirectory && keeps visited.1).map Prod.fst

/-- The paths of the directories that a search visits. -/
def directoriesIn (e : Entry) (isOpen : String → Bool) (root : String) : List String :=
  ((e.walk isOpen root).filter fun visited => visited.2.isDirectory).map Prod.fst

theorem mem_filesIn_iff (named : e.WellNamed) (given : root ≠ "") {keeps : String → Bool} :
    path ∈ e.filesIn isOpen keeps root ↔
      (∃ location content, e.get? location = some (.file content) ∧
        path = Path.below root location) ∧
      keeps path = true ∧
        ∀ directory, e.OnTheWay root directory path → isOpen directory = true := by
  constructor
  · intro mem
    obtain ⟨⟨_, visited⟩, kept, rfl⟩ := List.mem_map.1 mem
    obtain ⟨inWalk, conditions⟩ := List.mem_filter.1 kept
    obtain ⟨location, there, rfl, way, -⟩ := (mem_walk_iff named).1 inWalk
    rw [Bool.and_eq_true] at conditions
    cases visited with
    | file content =>
      exact ⟨⟨location, content, there, rfl⟩, conditions.2, (isOpenWay_iff named given there).1 way⟩
    | directory entries => cases conditions.1
  · rintro ⟨⟨location, content, there, rfl⟩, kept, way⟩
    refine List.mem_map.2 ⟨(Path.below root location, .file content), ?_, rfl⟩
    refine List.mem_filter.2 ⟨(mem_walk_iff named).2 ?_, kept⟩
    refine ⟨location, there, rfl, (isOpenWay_iff named given there).2 way, ?_⟩
    intro isDirectory
    cases isDirectory

theorem mem_directoriesIn_iff (named : e.WellNamed) (given : root ≠ "") :
    path ∈ e.directoriesIn isOpen root ↔
      e.HasDirectory root path ∧ isOpen path = true ∧
        ∀ directory, e.OnTheWay root directory path → isOpen directory = true := by
  constructor
  · intro mem
    obtain ⟨⟨_, visited⟩, kept, rfl⟩ := List.mem_map.1 mem
    obtain ⟨inWalk, isDirectory⟩ := List.mem_filter.1 kept
    obtain ⟨location, there, rfl, way, itself⟩ := (mem_walk_iff named).1 inWalk
    cases visited with
    | file content => cases isDirectory
    | directory entries =>
      exact ⟨⟨location, entries, there, rfl⟩, itself rfl, (isOpenWay_iff named given there).1 way⟩
  · rintro ⟨⟨location, entries, there, rfl⟩, itself, way⟩
    refine List.mem_map.2 ⟨(Path.below root location, .directory entries), ?_, rfl⟩
    refine List.mem_filter.2 ⟨(mem_walk_iff named).2 ?_, rfl⟩
    exact ⟨location, there, rfl, (isOpenWay_iff named given there).2 way, fun _ => itself⟩

/-- A search that opens more directories and keeps more files finds all that another finds, in the
same order. -/
theorem filesIn_sublist {isOpen' keeps keeps' : String → Bool}
    (wider : ∀ path, isOpen path = true → isOpen' path = true)
    (laxer : ∀ path, keeps path = true → keeps' path = true) (e : Entry) (root : String) :
    (e.filesIn isOpen keeps root).Sublist (e.filesIn isOpen' keeps' root) := by
  apply List.Sublist.map
  refine ((walk_sublist wider e root).filter _).trans (List.monotone_filter_right _ ?_)
  intro visited kept
  rw [Bool.and_eq_true] at kept ⊢
  exact ⟨kept.1, laxer _ kept.2⟩

theorem nodup_filesIn (named : e.WellNamed) (given : root ≠ "") (isOpen keeps : String → Bool) :
    (e.filesIn isOpen keeps root).Nodup :=
  (nodup_walk named given).sublist (List.filter_sublist.map Prod.fst)

end Entry

/-! ## Registering -/

namespace Watcher

variable {w : Watcher} {path other : String}

theorem mem_watched_register :
    other ∈ (w.register path).watched ↔ other = path ∨ other ∈ w.watched := by
  rw [register]
  split
  next known =>
    rw [List.contains_iff_mem] at known
    constructor
    · exact .inr
    · rintro (rfl | old)
      · exact known
      · exact old
  next => exact Fields.mem_names_insert

theorem mem_watched_foldl_register {paths : List String} :
    other ∈ (paths.foldl register w).watched ↔ other ∈ w.watched ∨ other ∈ paths := by
  induction paths generalizing w with
  | nil => simp
  | cons path paths ih =>
    rw [List.foldl_cons, ih, mem_watched_register, List.mem_cons, or_assoc]
    exact or_left_comm

/-- Registering directories changes neither the patterns nor the queue. -/
theorem foldl_register_eq (paths : List String) :
    (paths.foldl register w).exclude = w.exclude ∧ (paths.foldl register w).queue = w.queue := by
  induction paths generalizing w with
  | nil => exact ⟨rfl, rfl⟩
  | cons path paths ih =>
    have once : (w.register path).exclude = w.exclude ∧ (w.register path).queue = w.queue := by
      rw [register]
      split <;> exact ⟨rfl, rfl⟩
    rw [List.foldl_cons, ih.1, ih.2]
    exact once

/-! ## Searching for directories and files -/

theorem skipsFile_eq (w : Watcher) (path : String) :
    w.skipsFile path = (isHidden path || isLeftover path || isExcluded w.exclude path) := rfl

/-- A directory that a watcher opens is also searched for files to analyze. -/
theorem isSearched_of_open (w : Watcher) (root : String) {directory : String}
    (opened : (!w.skipsDirectory directory) = true) : isSearched root directory = true := by
  have more : ∀ name ∈ foreignDirectories, name ∈ unwatchedDirectories := by decide
  have notSkipped : Path.base directory ∉ unwatchedDirectories := by
    intro listed
    rw [skipsDirectory, List.contains_iff_mem.2 listed] at opened
    cases opened
  have notForeign : foreignDirectories.contains (Path.base directory) = false := by
    rw [Bool.eq_false_iff, ne_eq, List.contains_iff_mem]
    intro listed
    exact notSkipped (more _ listed)
  rw [isSearched, notForeign]
  exact Bool.or_true _

/-- What the search of a watcher gives. -/
theorem addTree_eq {d : Disk} {root : String} {e : Entry} (found : d.find root = .ok e) :
    w.addTree d root
      = .ok ((e.directoriesIn (fun directory => !w.skipsDirectory directory) root).foldl register w,
        e.filesIn (fun directory => !w.skipsDirectory directory)
          (fun path => isTreeFile path && !w.skipsFile path) root) := by
  rw [addTree, Disk.findFor, found]
  simp only [Except.mapError, Except.map, Bool.and_assoc]
  rfl

/-- What is collected for analysis. -/
theorem collect_eq_filesIn {d : Disk} {root : String} {e : Entry} (found : d.find root = .ok e)
    (exclude : List Text) :
    d.collect exclude root = .ok (e.filesIn (isSearched root)
      (fun path => isTreeFile path && !isExcluded exclude path) root) := by
  rw [Disk.collect, Disk.findFor, found]
  simp only [Except.mapError, Except.map, treeFiles, Bool.and_assoc]
  rfl

/-- In a directory on a disk a watcher sees part of the files that are collected, in their order: it
leaves out the hidden ones, the leftovers of editors, and those to which a directory leads that it
skips. Of the directories it gets to know those that are not skipped and to which no skipped
directory leads. -/
theorem addTree_of_collect (w : Watcher) (d : Disk) (named : d.root.WellNamed) (root : String)
    (e : Entry) (found : d.find root = .ok e) :
    ∃ w' files collected, w.addTree d root = .ok (w', files) ∧
      d.collect w.exclude root = .ok collected ∧ files.Sublist collected ∧ collected.Nodup ∧
      (∀ path, path ∈ files ↔ path ∈ collected ∧ isHidden path = false ∧ isLeftover path = false ∧
        ∀ directory, e.OnTheWay root directory path → w.skipsDirectory directory = false) ∧
      (∀ path, path ∈ w'.watched ↔ path ∈ w.watched ∨
        e.HasDirectory root path ∧ w.skipsDirectory path = false ∧
          ∀ directory, e.OnTheWay root directory path → w.skipsDirectory directory = false) ∧
      w'.exclude = w.exclude ∧ w'.queue = w.queue := by
  obtain ⟨given, location, there⟩ := Disk.find_eq_ok found
  have named' : e.WellNamed := named.get? there
  have wider : ∀ directory, (!w.skipsDirectory directory) = true →
      isSearched root directory = true := fun _ => w.isSearched_of_open root
  refine ⟨_, _, _, addTree_eq found, collect_eq_filesIn found w.exclude, ?_, ?_, ?_, ?_,
    foldl_register_eq _⟩
  · apply Entry.filesIn_sublist wider
    intro path kept
    simp only [skipsFile_eq, Bool.and_eq_true, Bool.not_eq_true', Bool.or_eq_false_iff] at kept ⊢
    exact ⟨kept.1, kept.2.2⟩
  · exact Entry.nodup_filesIn named' given _ _
  · intro path
    rw [Entry.mem_filesIn_iff named' given, Entry.mem_filesIn_iff named' given]
    simp only [skipsFile_eq, Bool.and_eq_true, Bool.not_eq_true', Bool.or_eq_false_iff]
    constructor
    · rintro ⟨place, ⟨isTree, ⟨shown, proper⟩, included⟩, way⟩
      -- the directories that lead to the file are open to the watcher, and therefore searched
      have searched : ∀ directory, e.OnTheWay root directory path → isSearched root directory := by
        intro directory leads
        apply wider
        rw [way directory leads]
        rfl
      exact ⟨⟨place, ⟨isTree, included⟩, searched⟩, shown, proper, way⟩
    · rintro ⟨⟨place, ⟨isTree, included⟩, -⟩, shown, proper, way⟩
      exact ⟨place, ⟨isTree, ⟨shown, proper⟩, included⟩, way⟩
  · intro path
    rw [mem_watched_foldl_register, Entry.mem_directoriesIn_iff named' given]
    simp only [Bool.not_eq_true']

/-- A directory with products of a build, a hidden file and generated files. -/
def yardDisk : Disk where
  root := .directory
    [("build", .directory [("c.sexp", .file [])]),
      ("lib", .directory
        [(".h.sexp", .file []), ("a.sexp", .file []), ("gen", .directory [("g.sexp", .file [])])]),
      ("top.sexp", .file [])]

/-- A watcher that leaves out what is generated. -/
def yardWatcher : Watcher := { exclude := ["gen/**"] }

theorem yardDisk_wellNamed : yardDisk.root.WellNamed := by
  simp only [yardDisk, Entry.wellNamed_directory_iff, Entry.wellNamed_file, List.forall_mem_cons,
    List.not_mem_nil, false_implies, implies_true, and_true]
  decide

/-- The products of the build are collected, but they are not seen and their directory is not
watched. -/
theorem yardWatcher_addTree :
    yardDisk.root.WellNamed ∧ yardDisk.find "." = .ok yardDisk.root ∧
      ∃ w' files collected, yardWatcher.addTree yardDisk "." = .ok (w', files) ∧
        yardDisk.collect yardWatcher.exclude "." = .ok collected ∧
        files = ["lib/a.sexp", "top.sexp"] ∧ "build/c.sexp" ∈ collected ∧
        files.Sublist collected ∧ "build" ∉ w'.watched := by
  have found : yardDisk.find "." = .ok yardDisk.root := rfl
  obtain ⟨w', files, collected, added, gathered, part, -, -, known, -⟩ :=
    addTree_of_collect yardWatcher yardDisk yardDisk_wellNamed "." yardDisk.root found
  have files_eq : (yardWatcher.addTree yardDisk ".").toOption.map Prod.snd
      = some ["lib/a.sexp", "top.sexp"] := by decide
  have collected_eq : (yardDisk.collect yardWatcher.exclude ".").toOption
      = some ["build/c.sexp", "lib/.h.sexp", "lib/a.sexp", "top.sexp"] := by decide
  rw [added] at files_eq
  rw [gathered] at collected_eq
  refine ⟨yardDisk_wellNamed, found, w', files, collected, added, gathered,
    Option.some.inj files_eq, ?_, part, ?_⟩
  · rw [Option.some.inj collected_eq]
    exact List.mem_cons_self
  · intro mem
    rcases (known "build").1 mem with old | ⟨-, opened, -⟩
    · cases old
    · revert opened
      decide

end Watcher

end CodeSmell
