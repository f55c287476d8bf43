import CodeSmell.Proofs.Watching
import Mathlib.Data.List.Infix

/-!
# Directories that come back

The system reports on a directory from the moment it is asked to, until the directory disappears. A
watcher asks for a directory when it gets to know it, and it never forgets one. So it does not ask
again for a directory that has disappeared and has come back, even though it is told of both.

A `Scene` follows the disk, the watcher and the system through a history. One step of a history asks
for the directories that become known by it and for no others (`Scene.exists_asks_step`). From this
`Scene.mem_reporting_run` tells after every history on which directories the system reports: on the
known ones that have not been lost since they became known.
-/

set_option autoImplicit false

namespace CodeSmell

/-- Whether a path is that of a directory. -/
def Disk.hasDirectory (d : Disk) (path : String) : Bool :=
  (d.find path).toOption.any Entry.isDirectory

theorem Disk.hasDirectory_iff {d : Disk} {path : String} :
    d.hasDirectory path = true ↔ ∃ entries, d.find path = .ok (.directory entries) := by
  rw [hasDirectory]
  cases d.find path with
  | error fault => simp [Except.toOption]
  | ok e => cases e <;> simp [Except.toOption, Entry.isDirectory]

namespace Watcher

variable {w w' w'' : Watcher} {asked asked' : List String} {path : String}

/-! ## What a watcher asks for -/

/-- A watcher becomes another one by asking for directories that it did not know. Whatever it asks
for is known to it afterwards. -/
structure Asks (w : Watcher) (asked : List String) (w' : Watcher) : Prop where
  requests : w'.requests = w.requests ++ asked
  nodup : asked.Nodup
  unknown : ∀ path ∈ asked, path ∉ w.watched
  watched : ∀ path, path ∈ w'.watched ↔ path ∈ w.watched ∨ path ∈ asked

/-- Only the queue changes. -/
theorem Asks.nothing (w : Watcher) (queue : Queue) : Asks w [] { w with queue := queue } where
  requests := (List.append_nil _).symm
  nodup := List.nodup_nil
  unknown := by simp
  watched := by simp [Watcher.watched]

theorem Asks.trans (first : Asks w asked w') (second : Asks w' asked' w'') :
    Asks w (asked ++ asked') w'' where
  requests := by rw [second.requests, first.requests, List.append_assoc]
  nodup := by
    refine List.nodup_append'.2 ⟨first.nodup, second.nodup, ?_⟩
    -- what was asked for first is known when the second part begins
    intro path early late
    exact second.unknown path late ((first.watched path).2 (.inr early))
  unknown := by
    intro path mem known
    rcases List.mem_append.1 mem with early | late
    · exact first.unknown path early known
    · exact second.unknown path late ((first.watched path).2 (.inl known))
  watched := by
    intro path
    rw [second.watched, first.watched, List.mem_append, or_assoc]

theorem exists_asks_register (w : Watcher) (path : String) :
    ∃ asked, Asks w asked (w.register path) := by
  by_cases known : path ∈ w.watched
  · refine ⟨[], ?_⟩
    rw [register, if_pos (List.contains_iff_mem.2 known)]
    exact .nothing w w.queue
  · refine ⟨[path], ?_, List.nodup_singleton path, ?_, ?_⟩
    · rw [register, if_neg (mt List.contains_iff_mem.1 known)]
    · intro other mem
      rw [List.mem_singleton.1 mem]
      exact known
    · intro other
      rw [mem_watched_register, List.mem_singleton, or_comm]

theorem exists_asks_foldl_register (w : Watcher) (paths : List String) :
    ∃ asked, Asks w asked (paths.foldl register w) := by
  induction paths generalizing w with
  | nil => exact ⟨[], .nothing w w.queue⟩
  | cons path paths ih =>
    obtain ⟨asked, first⟩ := exists_asks_register w path
    obtain ⟨asked', rest⟩ := ih (w.register path)
    exact ⟨asked ++ asked', first.trans rest⟩

theorem exists_asks_addTree {d : Disk} {files : List String}
    (added : w.addTree d path = .ok (w', files)) : ∃ asked, Asks w asked w' := by
  cases found : d.find path with
  | error fault =>
    rw [addTree, Disk.findFor, found] at added
    cases added
  | ok e =>
    rw [addTree_eq found] at added
    cases added
    exact exists_asks_foldl_register w _

theorem exists_asks_start {d : Disk} (started : w.start d path = .ok w') :
    ∃ asked, Asks w asked w' := by
  rw [start] at started
  cases stat : d.findFor "stat" path with
  | error fault =>
    rw [stat] at started
    cases started
  | ok e =>
    rw [stat] at started
    simp only [Except.mapError, bind, Except.bind] at started
    cases added : w.addTree d (if e.isDirectory then path else Path.parent path) with
    | error fault =>
      rw [added] at started
      cases started
    | ok result =>
      rw [added] at started
      cases started
      exact exists_asks_addTree added

theorem exists_asks_addNew (w : Watcher) (d : Disk) (path : String) :
    ∃ asked, Asks w asked (w.addNew d path).1 := by
  rw [addNew]
  split
  · exact ⟨[], .nothing w w.queue⟩
  · split
    next => exact ⟨[], .nothing w w.queue⟩
    next w' files added =>
      obtain ⟨asked, asks⟩ := exists_asks_addTree added
      exact ⟨asked ++ [], asks.trans (.nothing w' _)⟩

theorem exists_asks_handle (w : Watcher) (d : Disk) (e : WatchEvent) :
    ∃ asked, Asks w asked (w.handle d e).1 := by
  rw [handle]
  split
  · exact exists_asks_addNew w d e.path
  · split
    · exact ⟨[], .nothing w _⟩
    · exact ⟨[], .nothing w w.queue⟩

/-- A directory is known once its creation has been noticed, unless it is left out. -/
theorem mem_watched_handle {d : Disk} {e : WatchEvent} (created : .create ∈ e.changes)
    (there : d.hasDirectory e.path = true) (counts : w.skipsDirectory e.path = false) :
    e.path ∈ (w.handle d e).1.watched := by
  obtain ⟨entries, found⟩ := Disk.hasDirectory_iff.1 there
  have visited : e.path ∈ (Entry.directory entries).directoriesIn
      (fun directory => !w.skipsDirectory directory) e.path := by
    rw [Entry.directoriesIn, Entry.walk, counts]
    exact List.mem_cons_self
  have new : (e.changes.contains .create &&
      (d.find e.path).toOption.any Entry.isDirectory) = true := by
    rw [List.contains_iff_mem.2 created]
    exact there
  rw [handle, if_pos new, addNew, counts, addTree_eq found]
  exact mem_watched_foldl_register.2 (.inr visited)

end Watcher

/-! ## Histories -/

/-- What can happen while a disk is watched. -/
inductive Happening where
  /-- Files and directories are created or removed. -/
  | changes (disk : Disk)
  /-- The watcher starts to watch a path. -/
  | starts (path : String)
  /-- The watcher takes notice of an event. -/
  | event (e : WatchEvent)

/-- Whether there is no directory with a path any more. -/
def Happening.removes : Happening → String → Bool
  | .changes disk, path => !disk.hasDirectory path
  | .starts _, _ => false
  | .event _, _ => false

/-- A disk, its watcher, and the directories on which the system reports. -/
structure Scene where
  disk : Disk
  watcher : Watcher
  reporting : List String := []

namespace Scene

variable {s : Scene} {history : List Happening} {path : String}

/-- The watcher has acted: the system now reports on what it was asked for. -/
def act (s : Scene) (w : Watcher) : Scene :=
  { s with watcher := w, reporting := s.reporting ++ w.requests.drop s.watcher.requests.length }

/-- What a happening leads to. The system no longer reports on a directory that disappears, and it
does not start again by itself when the directory comes back. A path that cannot be watched is
refused. -/
def step (s : Scene) : Happening → Scene
  | .changes disk => { s with disk := disk, reporting := s.reporting.filter disk.hasDirectory }
  | .starts path => s.act ((s.watcher.start s.disk path).toOption.getD s.watcher)
  | .event e => s.act (s.watcher.handle s.disk e).1

/-- What a history leads to. -/
def run (s : Scene) (history : List Happening) : Scene := history.foldl step s

/-- Nothing is watched yet. -/
def opening (exclude : List Text) (disk : Disk) : Scene := ⟨disk, { exclude := exclude }, []⟩

theorem run_concat (s : Scene) (history : List Happening) (h : Happening) :
    s.run (history ++ [h]) = (s.run history).step h := by
  rw [run, List.foldl_append]
  rfl

/-- At some point of a history a directory disappears that the watcher knows. -/
def LosesWatched (s : Scene) (history : List Happening) (path : String) : Prop :=
  ∃ before h, before ++ [h] <+: history ∧ path ∈ (s.run before).watcher.watched ∧
    h.removes path = true

theorem not_losesWatched_nil (s : Scene) (path : String) : ¬ s.LosesWatched [] path := by
  rintro ⟨before, h, part, -, -⟩
  simp at part

theorem losesWatched_concat {h : Happening} :
    s.LosesWatched (history ++ [h]) path ↔
      s.LosesWatched history path ∨
        path ∈ (s.run history).watcher.watched ∧ h.removes path = true := by
  constructor
  · rintro ⟨before, lost, part, known, removed⟩
    rcases List.prefix_concat_iff.1 part with whole | part
    · obtain ⟨rfl, same⟩ := List.append_inj' whole rfl
      obtain rfl := List.singleton_inj.1 same
      exact .inr ⟨known, removed⟩
    · exact .inl ⟨before, lost, part, known, removed⟩
  · rintro (⟨before, lost, part, known, removed⟩ | ⟨known, removed⟩)
    · exact ⟨before, lost, part.trans (List.prefix_append _ _), known, removed⟩
    · exact ⟨history, h, List.prefix_rfl, known, removed⟩

/-! ## One step -/

/-- When a watcher acts, the system reports on what it is asked for, besides the rest. -/
theorem act_asks {w : Watcher} {asked : List String} (asks : s.watcher.Asks asked w) :
    (s.act w).reporting = s.reporting ++ asked := by
  rw [act, asks.requests, List.drop_left]

/-- In a step the system stops to report on what disappears, and it starts to report on the
directories that the watcher did not know. -/
theorem exists_asks_step (s : Scene) (h : Happening) :
    ∃ asked, s.watcher.Asks asked (s.step h).watcher ∧
      ∀ path, path ∈ (s.step h).reporting ↔
        path ∈ s.reporting ∧ h.removes path = false ∨ path ∈ asked := by
  cases h with
  | changes disk =>
    refine ⟨[], .nothing s.watcher s.watcher.queue, ?_⟩
    intro path
    simp [step, Happening.removes]
  | starts path =>
    have asks : ∃ asked, s.watcher.Asks asked
        ((s.watcher.start s.disk path).toOption.getD s.watcher) := by
      cases started : s.watcher.start s.disk path with
      | error fault => exact ⟨[], .nothing s.watcher s.watcher.queue⟩
      | ok w => exact Watcher.exists_asks_start started
    obtain ⟨asked, asks⟩ := asks
    refine ⟨asked, asks, ?_⟩
    intro path
    rw [step, act_asks asks]
    simp [Happening.removes]
  | event e =>
    obtain ⟨asked, asks⟩ := s.watcher.exists_asks_handle s.disk e
    refine ⟨asked, asks, ?_⟩
    intro path
    rw [step, act_asks asks]
    simp [Happening.removes]

/-! ## Whole histories -/

/-- What is known stays known, whatever happens. -/
theorem mem_watched_run_of_isPrefix {before : List Happening} (part : before <+: history)
    (known : path ∈ (s.run before).watcher.watched) : path ∈ (s.run history).watcher.watched := by
  obtain ⟨after, rfl⟩ := part
  induction after using List.reverseRecOn with
  | nil =>
    rw [List.append_nil]
    exact known
  | append_singleton after h ih =>
    obtain ⟨asked, asks, -⟩ := (s.run (before ++ after)).exists_asks_step h
    rw [← List.append_assoc, run_concat]
    exact (asks.watched path).2 (.inl ih)

variable {exclude : List Text} {disk : Disk}

/-- A watcher asks once for each directory that it knows. -/
theorem count_requests_run :
    ((opening exclude disk).run history).watcher.requests.count path
      = if path ∈ ((opening exclude disk).run history).watcher.watched then 1 else 0 := by
  induction history using List.reverseRecOn with
  | nil => rfl
  | append_singleton history h ih =>
    obtain ⟨asked, asks, -⟩ := ((opening exclude disk).run history).exists_asks_step h
    rw [run_concat, asks.requests, List.count_append, ih, asks.nodup.count]
    by_cases new : path ∈ asked
    · rw [if_neg (asks.unknown path new), if_pos new, if_pos ((asks.watched path).2 (.inr new))]
    · simp [asks.watched, new]

/-- The system reports on the known directories that have not been lost since they became known. -/
theorem mem_reporting_run :
    path ∈ ((opening exclude disk).run history).reporting ↔
      path ∈ ((opening exclude disk).run history).watcher.watched ∧
        ¬ (opening exclude disk).LosesWatched history path := by
  induction history using List.reverseRecOn with
  | nil => exact iff_of_false List.not_mem_nil fun known => List.not_mem_nil known.1
  | append_singleton history h ih =>
    obtain ⟨asked, asks, reporting⟩ := ((opening exclude disk).run history).exists_asks_step h
    rw [run_concat, reporting, asks.watched, losesWatched_concat, ih]
    by_cases known : path ∈ ((opening exclude disk).run history).watcher.watched
    · have old : path ∉ asked := fun new => asks.unknown path new known
      simp [known, old]
    · -- what is not known cannot have been lost before, because nothing is forgotten
      have unlost : ¬ (opening exclude disk).LosesWatched history path := by
        rintro ⟨before, lost, part, earlier, -⟩
        have part' : before <+: history := (List.prefix_append before [lost]).trans part
        exact known (mem_watched_run_of_isPrefix part' earlier)
      simp [known, unlost]

/-- A directory that exists and is not left out is known once its creation has been noticed. The
system reports on it exactly if it was not lost before while the watcher knew it: the watcher asks
for each directory once, and it knows a directory for ever, also after its removal has been
noticed. -/
theorem created_directory_reported_iff (exclude : List Text) (disk : Disk)
    (history : List Happening) (e : WatchEvent) (created : Change.create ∈ e.changes)
    (there : ((opening exclude disk).run history).disk.hasDirectory e.path = true)
    (counts : ((opening exclude disk).run history).watcher.skipsDirectory e.path = false) :
    e.path ∈ ((opening exclude disk).run (history ++ [.event e])).watcher.watched ∧
    (e.path ∈ ((opening exclude disk).run (history ++ [.event e])).reporting ↔
      ¬ (opening exclude disk).LosesWatched history e.path) ∧
    ((opening exclude disk).run (history ++ [.event e])).watcher.requests.count e.path = 1 ∧
    ∀ before path, before <+: history →
      path ∈ ((opening exclude disk).run before).watcher.watched →
        path ∈ ((opening exclude disk).run (history ++ [.event e])).watcher.watched := by
  have known : e.path ∈ ((opening exclude disk).run (history ++ [.event e])).watcher.watched := by
    rw [run_concat]
    exact Watcher.mem_watched_handle created there counts
  have kept : (Happening.event e).removes e.path = false := rfl
  refine ⟨known, ?_, ?_, ?_⟩
  · rw [mem_reporting_run, losesWatched_concat, kept]
    simp [known]
  · rw [count_requests_run, if_pos known]
  · intro before path part earlier
    exact mem_watched_run_of_isPrefix (part.trans (List.prefix_append _ _)) earlier

/-- A disk with an empty directory. -/
def shelfDisk : Disk := { root := .directory [("lib", .directory [])] }

/-- The system reports on a directory that is created for the first time. -/
theorem shelf_reported_when_created :
    shelfDisk.hasDirectory "lib" = true ∧
      "lib" ∈ ((opening [] {}).run
        [.starts ".", .changes shelfDisk, .event ⟨"lib", [.create]⟩]).reporting := by
  have there : shelfDisk.hasDirectory "lib" = true := by decide
  have unlost : ¬ (opening [] {}).LosesWatched
      ([] ++ [.starts "."] ++ [.changes shelfDisk]) "lib" := by
    rw [losesWatched_concat, losesWatched_concat]
    rintro ((early | ⟨-, removed⟩) | ⟨-, removed⟩)
    · exact not_losesWatched_nil _ _ early
    · cases removed
    · cases removed
  exact ⟨there, (created_directory_reported_iff [] {} [.starts ".", .changes shelfDisk]
    ⟨"lib", [.create]⟩ List.mem_cons_self there (by decide)).2.1.2 unlost⟩

/-- A directory is removed and comes back; the watcher takes notice of both. -/
def shelfReturns : List Happening :=
  [.starts ".", .changes {}, .event ⟨"lib", [.remove]⟩, .changes shelfDisk,
    .event ⟨"lib", [.create]⟩]

/-- The system does not report on the directory that has come back, because the watcher knows it
even after its removal. -/
theorem shelf_not_reported_when_recreated :
    "lib" ∈ ((opening [] shelfDisk).run (shelfReturns.take 3)).watcher.watched ∧
      ((opening [] shelfDisk).run (shelfReturns.take 4)).disk.hasDirectory "lib" = true ∧
      ((opening [] shelfDisk).run (shelfReturns.take 4)).watcher.skipsDirectory "lib" = false ∧
      "lib" ∉ ((opening [] shelfDisk).run shelfReturns).reporting := by
  decide

end Scene

end CodeSmell
