import CodeSmell.Analysis
import CodeSmell.Proofs.Encoding
import Mathlib.Data.List.Nodup
import Mathlib.Logic.Relation

/-!
# Analyzing files in parallel

Files can be analyzed by several workers at a time. Each file has a task and a slot for its report.
A task waits until a worker is free, analyzes its file, and then either puts the report into its
slot or notes in the log that the file is skipped, which leaves the slot empty. `Pool.Step` says
what can happen next. It fixes neither the order in which tasks start nor how they interleave. When
nothing is left to do, the slots are gone through in the order of the files (`Pool.analysis`).

Every schedule comes to an end, and wherever nothing more can happen the analysis is that of the
files one after the other, with the same files and the same warnings in the same order
(`parallel_analysis_is_sequential`). Only the log depends on the schedule.
-/

set_option autoImplicit false

namespace CodeSmell

/-! ## Tasks -/

/-- How far the task for a file has come. -/
inductive Phase where
  | waiting
  | running
  /-- The file is analyzed, and nothing has been stored yet. -/
  | analyzed (outcome : Except SkipReason (List Warning))
  | finished

namespace Phase

/-- Whether a task keeps a worker busy. -/
def isActive : Phase → Bool
  | .running | .analyzed _ => true
  | .waiting | .finished => false

/-- The number of steps that a task still has to make. -/
def remaining : Phase → Nat
  | .waiting => 3
  | .running => 2
  | .analyzed _ => 1
  | .finished => 0

end Phase

/-- The largest number of tasks at a time: there is always a worker. -/
def Settings.workers (s : Settings) : Nat := (max s.maxWorkers 1).toNat

/-- The tasks for some files with their slots, and the log of skipped files. -/
structure Pool where
  phases : List Phase
  reports : List (Option (List Warning))
  log : List (String × SkipReason) := []

namespace Pool

/-- The pool in which all tasks are waiting. -/
def start (files : List String) : Pool :=
  { phases := files.map fun _ => .waiting, reports := files.map fun _ => none }

/-- The number of busy workers. -/
def busy (p : Pool) : Nat := p.phases.countP Phase.isActive

/-- The number of steps that the tasks still have to make. -/
def remaining (p : Pool) : Nat := (p.phases.map Phase.remaining).foldr (· + ·) 0

/-- What can happen next in a pool for some files. -/
inductive Step (d : Disk) (s : Settings) (files : List String) : Pool → Pool → Prop
  /-- A free worker takes up a task. -/
  | start {p : Pool} (i : Nat) (waits : p.phases[i]? = some .waiting) (free : p.busy < s.workers) :
    Step d s files p { p with phases := p.phases.set i .running }
  /-- A file is analyzed. -/
  | analyze {p : Pool} (i : Nat) {file : String} {outcome : Except SkipReason (List Warning)}
    (runs : p.phases[i]? = some .running) (named : files[i]? = some file)
    (done : analyzeFile d s file = .ok outcome) :
    Step d s files p { p with phases := p.phases.set i (.analyzed outcome) }
  /-- A report is put into its slot. -/
  | store {p : Pool} (i : Nat) {report : List Warning}
    (ready : p.phases[i]? = some (.analyzed (.ok report))) :
    Step d s files p
      { p with phases := p.phases.set i .finished, reports := p.reports.set i (some report) }
  /-- A file is skipped. -/
  | skip {p : Pool} (i : Nat) {file : String} {reason : SkipReason}
    (ready : p.phases[i]? = some (.analyzed (.error reason))) (named : files[i]? = some file) :
    Step d s files p
      { p with phases := p.phases.set i .finished, log := p.log ++ [(file, reason)] }

/-- The pool comes from a state to another. -/
abbrev Reaches (d : Disk) (s : Settings) (files : List String) : Pool → Pool → Prop :=
  Relation.ReflTransGen (Step d s files)

/-- The files that have a report in their slots, with these reports. -/
def kept (files : List String) (p : Pool) : List (String × List Warning) :=
  (files.zip p.reports).filterMap fun (file, report) => report.map (file, ·)

/-- What the slots of a pool come to when they are gone through in the order of the files. -/
def analysis (files : List String) (p : Pool) : Analysis :=
  { files := (p.kept files).map Prod.fst
    warnings := (p.kept files).flatMap Prod.snd
    skipped := p.log }

end Pool

/-! ## Files one after the other -/

/-- The report about a file, if it is not skipped. -/
def reportOn (d : Disk) (s : Settings) (file : String) : Option (List Warning) :=
  match analyzeFile d s file with
  | .ok (.ok report) => some report
  | _ => none

/-- Why a file is skipped, if it is. -/
def skipOf (d : Disk) (s : Settings) (file : String) : Option (String × SkipReason) :=
  match analyzeFile d s file with
  | .ok (.error reason) => some (file, reason)
  | _ => none

/-- The analysis of files none of which breaks off. -/
def sequentialAnalysis (d : Disk) (s : Settings) (files : List String) : Analysis :=
  { files := files.filter fun file => (reportOn d s file).isSome
    warnings := files.flatMap fun file => (reportOn d s file).getD []
    skipped := files.filterMap (skipOf d s) }

section Sequential

variable {d : Disk} {s : Settings}

theorem reportOn_of_ok {file : String} {report : List Warning}
    (h : analyzeFile d s file = .ok (.ok report)) : reportOn d s file = some report := by
  rw [reportOn, h]

theorem reportOn_of_error {file : String} {reason : SkipReason}
    (h : analyzeFile d s file = .ok (.error reason)) : reportOn d s file = none := by
  rw [reportOn, h]

theorem skipOf_of_ok {file : String} {report : List Warning}
    (h : analyzeFile d s file = .ok (.ok report)) : skipOf d s file = none := by
  rw [skipOf, h]

theorem skipOf_of_error {file : String} {reason : SkipReason}
    (h : analyzeFile d s file = .ok (.error reason)) : skipOf d s file = some (file, reason) := by
  rw [skipOf, h]

/-- The files are analyzed one after the other if no analysis breaks off. -/
theorem analyzeFiles_eq_ok (files : List String)
    (fine : ∀ file ∈ files, ∃ outcome, analyzeFile d s file = .ok outcome) :
    analyzeFiles d s files = .ok (sequentialAnalysis d s files) := by
  induction files with
  | nil => rfl
  | cons file files ih =>
    obtain ⟨outcome, here⟩ := fine file List.mem_cons_self
    have later := ih fun other mem => fine other (List.mem_cons_of_mem file mem)
    unfold analyzeFiles at later ⊢
    rw [List.mapM_cons, here]
    cases outcomes : files.mapM fun file => (analyzeFile d s file).map (file, ·) with
    | error f =>
      rw [outcomes] at later
      cases later
    | ok rest =>
      rw [outcomes] at later
      have analysis : Analysis.ofOutcomes rest = sequentialAnalysis d s files :=
        Except.ok.inj later
      cases outcome with
      | ok report =>
        have ends : Analysis.ofOutcomes ((file, .ok report) :: rest)
            = sequentialAnalysis d s (file :: files) := by
          simp [Analysis.ofOutcomes, analysis, sequentialAnalysis, reportOn_of_ok here,
            skipOf_of_ok here]
        exact congrArg Except.ok ends
      | error reason =>
        have ends : Analysis.ofOutcomes ((file, .error reason) :: rest)
            = sequentialAnalysis d s (file :: files) := by
          simp [Analysis.ofOutcomes, analysis, sequentialAnalysis, reportOn_of_error here,
            skipOf_of_error here]
        exact congrArg Except.ok ends

end Sequential

/-! ## What holds in every pool on the way -/

/-- What is left of a value when a task has come to a phase: it is there once the task is
finished. -/
def Phase.settled {α : Type} (value : Option α) : Phase → Option α
  | .finished => value
  | .waiting | .running | .analyzed _ => none

/-- The change of one item of a list is a change of one item of what is kept of it. -/
theorem filterMap_perm_of_change {ι α : Type} [DecidableEq ι] {f g : ι → Option α} {i : ι}
    (same : ∀ j, j ≠ i → g j = f j) (before : f i = none) {is : List ι} (distinct : is.Nodup)
    (mem : i ∈ is) : (is.filterMap g).Perm (is.filterMap f ++ (g i).toList) := by
  induction is with
  | nil => cases mem
  | cons j is ih =>
    obtain ⟨absent, distinct⟩ := List.nodup_cons.1 distinct
    by_cases here : j = i
    · subst here
      have rest : is.filterMap g = is.filterMap f := by
        apply List.filterMap_congr
        intro k later
        apply same
        rintro rfl
        exact absent later
      rw [List.filterMap_cons_none before]
      cases found : g j with
      | none => simp [found, rest]
      | some a =>
        rw [List.filterMap_cons_some found, rest]
        exact (List.perm_append_singleton a _).symm
    · have later := ih distinct (List.mem_of_ne_of_mem (Ne.symm here) mem)
      have equal := same j here
      cases found : f j with
      | none =>
        rw [List.filterMap_cons_none found, List.filterMap_cons_none (equal.trans found)]
        exact later
      | some a =>
        rw [List.filterMap_cons_some found, List.filterMap_cons_some (equal.trans found)]
        exact later.cons a

/-- What is kept of a list can be told place by place. -/
theorem filterMap_range {α β : Type} (f : α → Option β) (xs : List α) :
    (List.range xs.length).filterMap (fun i => xs[i]?.bind f) = xs.filterMap f := by
  induction xs with
  | nil => rfl
  | cons x xs ih =>
    have later : ((List.range xs.length).map Nat.succ).filterMap (fun i => (x :: xs)[i]?.bind f)
        = xs.filterMap f := by
      rw [List.filterMap_map, ← ih]
      rfl
    rw [List.length_cons, List.range_succ_eq_map, List.filterMap_cons, List.filterMap_cons, later]
    rfl

namespace Pool

variable {d : Disk} {s : Settings} {files : List String}

/-- What the log has to say about the file at a place, if its task is finished. -/
def skippedAt (d : Disk) (s : Settings) (files : List String) (phases : List Phase) (i : Nat) :
    Option (String × SkipReason) :=
  phases[i]?.bind fun phase => phase.settled (files[i]?.bind (skipOf d s))

/-- What holds in every pool on the way. Slots and log tell about finished tasks what analyzing
their files alone comes to, and nothing about the others. -/
structure Sound (d : Disk) (s : Settings) (files : List String) (p : Pool) : Prop where
  phases : p.phases.length = files.length
  reports : p.reports.length = files.length
  slot : ∀ {i : Nat} {file : String} {phase : Phase}, files[i]? = some file →
    p.phases[i]? = some phase →
    p.reports[i]? = some (phase.settled (reportOn d s file))
  outcome : ∀ {i : Nat} {file : String} {outcome : Except SkipReason (List Warning)},
    files[i]? = some file → p.phases[i]? = some (.analyzed outcome) →
    analyzeFile d s file = .ok outcome
  log : p.log.Perm ((List.range files.length).filterMap (skippedAt d s files p.phases))

theorem phase_start {i : Nat} {phase : Phase} (found : (start files).phases[i]? = some phase) :
    phase = .waiting := by
  simp only [start, List.getElem?_map, Option.map_eq_some_iff] at found
  obtain ⟨file, -, waits⟩ := found
  exact waits.symm

theorem sound_start : (start files).Sound d s files where
  phases := List.length_map ..
  reports := List.length_map ..
  slot named found := by
    rw [phase_start found, start, List.getElem?_map, named]
    rfl
  outcome _ found := nomatch phase_start found
  log := by
    have unsettled (i : Nat) : skippedAt d s files (start files).phases i = none := by
      rw [skippedAt]
      cases found : (start files).phases[i]? with
      | none => rfl
      | some phase =>
        rw [phase_start found]
        rfl
    rw [List.filterMap_eq_nil_iff.2 fun i _ => unsettled i]
    exact .nil

/-- The task for a file moves on to a phase. -/
def advance (d : Disk) (s : Settings) (p : Pool) (i : Nat) (file : String) (phase : Phase) : Pool :=
  { phases := p.phases.set i phase
    reports := p.reports.set i (phase.settled (reportOn d s file))
    log := p.log ++ (phase.settled (skipOf d s file)).toList }

/-- Only the task that moves on has another phase. -/
theorem phase_advance {p : Pool} {i j : Nat} {file : String} {phase next : Phase}
    (inRange : i < p.phases.length)
    (found : (p.advance d s i file phase).phases[j]? = some next) :
    i = j ∧ next = phase ∨ i ≠ j ∧ p.phases[j]? = some next := by
  rw [advance] at found
  by_cases here : i = j
  · subst here
    rw [List.getElem?_set_self inRange] at found
    exact .inl ⟨rfl, (Option.some.inj found).symm⟩
  · rw [List.getElem?_set_ne here] at found
    exact .inr ⟨here, found⟩

/-- Nothing that holds on the way is lost when an unfinished task moves on. -/
theorem Sound.advance {p : Pool} (h : p.Sound d s files) {i : Nat} {file : String}
    {old phase : Phase} (named : files[i]? = some file) (found : p.phases[i]? = some old)
    (unfinished : old ≠ .finished)
    (known : ∀ outcome, phase = .analyzed outcome → analyzeFile d s file = .ok outcome) :
    (p.advance d s i file phase).Sound d s files where
  phases := (List.length_set ..).trans h.phases
  reports := (List.length_set ..).trans h.reports
  slot {j other next} named' found' := by
    have inRange : i < p.phases.length := (List.getElem?_eq_some_iff.1 found).1
    have slotInRange : i < p.reports.length := by rw [h.reports, ← h.phases]; exact inRange
    rw [Pool.advance]
    rcases phase_advance inRange found' with ⟨rfl, rfl⟩ | ⟨other, earlier⟩
    · obtain rfl := Option.some.inj (named.symm.trans named')
      exact List.getElem?_set_self slotInRange
    · rw [List.getElem?_set_ne other]
      exact h.slot named' earlier
  outcome {j other outcome} named' found' := by
    have inRange : i < p.phases.length := (List.getElem?_eq_some_iff.1 found).1
    rcases phase_advance inRange found' with ⟨rfl, same⟩ | ⟨-, earlier⟩
    · obtain rfl := Option.some.inj (named.symm.trans named')
      exact known outcome same.symm
    · exact h.outcome named' earlier
  log := by
    have inRange : i < p.phases.length := (List.getElem?_eq_some_iff.1 found).1
    have unsettled : skippedAt d s files p.phases i = none := by
      rw [skippedAt, found, Option.bind_some]
      cases old
      case finished => exact absurd rfl unfinished
      all_goals rfl
    have settled : skippedAt d s files (p.phases.set i phase) i
        = phase.settled (skipOf d s file) := by
      rw [skippedAt, List.getElem?_set_self inRange, named]
      rfl
    have others (j : Nat) (other : j ≠ i) : skippedAt d s files (p.phases.set i phase) j
        = skippedAt d s files p.phases j := by
      rw [skippedAt, skippedAt, List.getElem?_set_ne (Ne.symm other)]
    have place : i ∈ List.range files.length := by rwa [List.mem_range, ← h.phases]
    have changed := filterMap_perm_of_change others unsettled List.nodup_range place
    rw [settled] at changed
    exact (h.log.append_right _).trans changed.symm

/-- A step is the progress of one unfinished task, by which less is left to do. -/
theorem Step.exists_advance {p q : Pool} (h : p.Sound d s files) (step : Step d s files p q) :
    ∃ i file old phase, files[i]? = some file ∧ p.phases[i]? = some old ∧
      old ≠ .finished ∧ phase.remaining < old.remaining ∧
      (∀ outcome, phase = .analyzed outcome → analyzeFile d s file = .ok outcome) ∧
      q = p.advance d s i file phase := by
  -- a task is that of a file, and its slot is still empty
  have fileAt {i : Nat} {phase : Phase} (found : p.phases[i]? = some phase) :
      ∃ file, files[i]? = some file := by
    have inRange := (List.getElem?_eq_some_iff.1 found).1
    rw [h.phases] at inRange
    exact ⟨_, List.getElem?_eq_getElem inRange⟩
  have unchanged {i : Nat} (empty : p.reports[i]? = some none) :
      p.reports.set i none = p.reports := by
    obtain ⟨inRange, value⟩ := List.getElem?_eq_some_iff.1 empty
    rw [← value, List.set_getElem_self]
  cases step with
  | start i waits free =>
    obtain ⟨file, named⟩ := fileAt waits
    refine ⟨i, file, .waiting, .running, named, waits, nofun, by decide, nofun, ?_⟩
    simp [Pool.advance, Phase.settled, unchanged (h.slot named waits)]
  | @analyze i file outcome runs named done =>
    refine ⟨i, file, .running, .analyzed outcome, named, runs, nofun, Nat.lt_succ_self 1, ?_, ?_⟩
    · rintro _ ⟨⟩
      exact done
    · simp [Pool.advance, Phase.settled, unchanged (h.slot named runs)]
  | @store i report ready =>
    obtain ⟨file, named⟩ := fileAt ready
    have done := h.outcome named ready
    refine ⟨i, file, _, .finished, named, ready, nofun, Nat.zero_lt_one, nofun, ?_⟩
    simp [Pool.advance, Phase.settled, reportOn_of_ok done, skipOf_of_ok done]
  | @skip i file reason ready named =>
    have done := h.outcome named ready
    refine ⟨i, file, _, .finished, named, ready, nofun, Nat.zero_lt_one, nofun, ?_⟩
    simp [Pool.advance, Phase.settled, reportOn_of_error done, skipOf_of_error done,
      unchanged (h.slot named ready)]

theorem Sound.step {p q : Pool} (h : p.Sound d s files) (step : Step d s files p q) :
    q.Sound d s files := by
  obtain ⟨i, file, old, phase, named, found, unfinished, -, known, rfl⟩ := step.exists_advance h
  exact h.advance named found unfinished known

/-- Nothing that holds on the way is lost in a run. -/
theorem Sound.run {p q : Pool} (h : p.Sound d s files) (run : Reaches d s files p q) :
    q.Sound d s files := by
  induction run with
  | refl => exact h
  | tail _ step ih => exact ih.step step

/-! ## Every schedule ends -/

theorem remaining_set_lt {phases : List Phase} {i : Nat} {old phase : Phase}
    (found : phases[i]? = some old) (less : phase.remaining < old.remaining) :
    ((phases.set i phase).map Phase.remaining).foldr (· + ·) 0
      < (phases.map Phase.remaining).foldr (· + ·) 0 := by
  induction phases generalizing i with
  | nil => cases found
  | cons first phases ih =>
    cases i with
    | zero =>
      cases found
      simpa using less
    | succ i =>
      have later := ih found
      simpa using later

/-- Every step leaves less to do. -/
theorem Step.remaining_lt {p q : Pool} (h : p.Sound d s files) (step : Step d s files p q) :
    q.remaining < p.remaining := by
  obtain ⟨i, file, old, phase, -, found, -, less, -, rfl⟩ := step.exists_advance h
  exact remaining_set_lt found less

/-- No schedule goes on forever. -/
theorem Sound.acc {p : Pool} (h : p.Sound d s files) :
    Acc (fun q p => Step d s files p q) p := by
  induction n : p.remaining using Nat.strongRecOn generalizing p with
  | ind n ih =>
    apply Acc.intro
    intro q step
    have less := step.remaining_lt h
    rw [n] at less
    exact ih q.remaining less (h.step step) rfl

/-- A pool with an unfinished task can go on: with the task of a busy worker, or by taking up a
waiting task, since there is always a worker. -/
theorem Sound.exists_step {p : Pool} (h : p.Sound d s files)
    (fine : ∀ file ∈ files, ∃ outcome, analyzeFile d s file = .ok outcome) {phase : Phase}
    (mem : phase ∈ p.phases) (unfinished : phase ≠ .finished) : ∃ q, Step d s files p q := by
  by_cases active : ∃ phase ∈ p.phases, phase.isActive = true
  · obtain ⟨phase, mem, active⟩ := active
    obtain ⟨i, found⟩ := List.mem_iff_getElem?.1 mem
    have inRange := (List.getElem?_eq_some_iff.1 found).1
    rw [h.phases] at inRange
    have named : files[i]? = some files[i] := List.getElem?_eq_getElem inRange
    cases phase with
    | waiting => cases active
    | running =>
      obtain ⟨outcome, done⟩ := fine files[i] (List.getElem_mem inRange)
      exact ⟨_, .analyze i found named done⟩
    | analyzed outcome =>
      cases outcome with
      | ok report => exact ⟨_, .store i found⟩
      | error reason => exact ⟨_, .skip i found named⟩
    | finished => cases active
  · have idle : p.busy = 0 := by
      rw [busy, List.countP_eq_zero]
      intro other mem activity
      exact active ⟨other, mem, activity⟩
    obtain ⟨i, found⟩ := List.mem_iff_getElem?.1 mem
    have waits : phase = .waiting := by
      cases phase with
      | waiting => rfl
      | running => exact absurd ⟨_, mem, rfl⟩ active
      | analyzed outcome => exact absurd ⟨_, mem, rfl⟩ active
      | finished => exact absurd rfl unfinished
    subst waits
    refine ⟨_, .start i found ?_⟩
    rw [idle, Settings.workers]
    omega

/-! ## What every schedule comes to -/

/-- Where all tasks are finished, the slots hold the reports on the files. -/
theorem Sound.reports_eq {p : Pool} (h : p.Sound d s files)
    (finished : ∀ phase ∈ p.phases, phase = .finished) :
    p.reports = files.map (reportOn d s) := by
  apply List.ext_getElem?
  intro i
  rw [List.getElem?_map]
  cases named : files[i]? with
  | none =>
    rw [List.getElem?_eq_none_iff, ← h.reports] at named
    simpa using named
  | some file =>
    have inRange := (List.getElem?_eq_some_iff.1 named).1
    rw [← h.phases] at inRange
    have found : p.phases[i]? = some .finished := by
      rw [List.getElem?_eq_getElem inRange, finished _ (List.getElem_mem inRange)]
    exact h.slot named found

theorem Sound.log_perm {p : Pool} (h : p.Sound d s files)
    (finished : ∀ phase ∈ p.phases, phase = .finished) :
    p.log.Perm (files.filterMap (skipOf d s)) := by
  have each (i : Nat) (mem : i ∈ List.range files.length) :
      skippedAt d s files p.phases i = files[i]?.bind (skipOf d s) := by
    have inRange : i < p.phases.length := by rw [h.phases]; exact List.mem_range.1 mem
    rw [skippedAt, List.getElem?_eq_getElem inRange, finished _ (List.getElem_mem inRange)]
    rfl
  rw [← filterMap_range, ← List.filterMap_congr each]
  exact h.log

theorem analysis_of_reports {p : Pool} (h : p.reports = files.map (reportOn d s)) :
    (p.analysis files).files = (sequentialAnalysis d s files).files ∧
      (p.analysis files).warnings = (sequentialAnalysis d s files).warnings := by
  have kept : p.kept files = files.filterMap fun file => (reportOn d s file).map (file, ·) := by
    rw [Pool.kept, h]
    clear h
    induction files with
    | nil => rfl
    | cons file files ih => simp [List.filterMap_cons, ih]
  simp only [analysis, sequentialAnalysis, kept]
  clear kept h
  induction files with
  | nil => exact ⟨rfl, rfl⟩
  | cons file files ih =>
    cases found : reportOn d s file with
    | none => simpa [found] using ih
    | some report => simpa [found] using ih

end Pool

/-- Analyzing files in parallel is analyzing them one after the other. Let no analysis of a file
break off. Then the files can be analyzed one after the other, which keeps those with a report and
lists their warnings in the order of the files. Whatever the number of workers is, every schedule of
the tasks ends, and wherever nothing more can happen, the files and warnings are the same. So are
the skipped files, in some order. -/
theorem parallel_analysis_is_sequential (d : Disk) (s : Settings) (files : List String)
    (fine : ∀ file ∈ files, ∃ outcome, analyzeFile d s file = .ok outcome) :
    ∃ a, analyzeFiles d s files = .ok a ∧
      a.files = files.filter (fun file => (reportOn d s file).isSome) ∧
      a.warnings = files.flatMap (fun file => (reportOn d s file).getD []) ∧
      Acc (fun q p => Pool.Step d s files p q) (Pool.start files) ∧
      ∀ p, Pool.Reaches d s files (Pool.start files) p → (∀ q, ¬ Pool.Step d s files p q) →
        (p.analysis files).files = a.files ∧ (p.analysis files).warnings = a.warnings ∧
          (p.analysis files).skipped.Perm a.skipped := by
  have start : (Pool.start files).Sound d s files := Pool.sound_start
  refine ⟨sequentialAnalysis d s files, analyzeFiles_eq_ok files fine, rfl, rfl, start.acc, ?_⟩
  intro p run stuck
  have sound := start.run run
  have finished : ∀ phase ∈ p.phases, phase = .finished := by
    intro phase mem
    by_contra unfinished
    obtain ⟨q, step⟩ := sound.exists_step fine mem unfinished
    exact stuck q step
  obtain ⟨names, warnings⟩ := Pool.analysis_of_reports (sound.reports_eq finished)
  exact ⟨names, warnings, sound.log_perm finished⟩

/-- A class that assumes a variable. -/
def binText : Text := "(class Bin nil (defn fill (ivar @a)))"

/-- The class. -/
def binClass : Tree :=
  .known .classDef 0 [.atom (.sym "Bin"), .atom .nil,
    .known .defn 0 [.atom (.sym "fill"), .known .ivar 0 [.atom (.sym "@a")]]]

/-- A text that breaks off. -/
def cutText : Text := "(class Bin"

/-- A directory with both texts. -/
def stockDisk : Disk := { root := .directory [("bin", .file binText), ("cut", .file cutText)] }

/-- Settings that ask for no worker at all. -/
def stockSettings : Settings := { maxWorkers := 0 }

/-- A file twice, one that is no tree, and one that is missing. -/
def stockFiles : List String := ["bin", "cut", "bin", "none"]

theorem analyze_bin : analyzeFile stockDisk stockSettings "bin"
    = .ok (.ok (warningsAbout stockSettings "bin" binClass.walk.completed)) := by
  have size : checkSize stockDisk 1024 "bin" = .ok () := rfl
  have content : stockDisk.read "bin" = .ok binText := rfl
  have read : Tree.read binText.sourceChars = .ok binClass := by
    rw [binText, Text.ofString, Text.sourceChars_ofChars]
    rfl
  have tree : readTree stockDisk 1024 "bin" = .ok binClass := by
    rw [readTree, size, content]
    simp only [Except.mapError, bind, Except.bind, read]
  have run : binClass.examine stockSettings "bin"
      = .ok (warningsAbout stockSettings "bin" binClass.walk.completed) := rfl
  have limit : stockSettings.files.maxSize = 1024 := rfl
  rw [analyzeFile, limit, tree]
  simp only [run]

theorem analyze_cut :
    ∃ e, analyzeFile stockDisk stockSettings "cut" = .ok (.error (.noTree "cut" e)) := by
  have size : checkSize stockDisk 1024 "cut" = .ok () := rfl
  have content : stockDisk.read "cut" = .ok cutText := rfl
  have read : ∃ e, Tree.read cutText.sourceChars = .error e := by
    rw [cutText, Text.ofString, Text.sourceChars_ofChars]
    exact ⟨_, rfl⟩
  obtain ⟨e, read⟩ := read
  have tree : readTree stockDisk 1024 "cut" = .error (.noTree "cut" e) := by
    rw [readTree, size, content]
    simp only [Except.mapError, bind, Except.bind, read]
  have limit : stockSettings.files.maxSize = 1024 := rfl
  refine ⟨e, ?_⟩
  rw [analyzeFile, limit, tree]

theorem analyze_none : analyzeFile stockDisk stockSettings "none"
    = .ok (.error (.noSize "none" ⟨"stat", "none", .missing⟩)) := rfl

/-- Two of the four files have reports, also when no worker is asked for. -/
theorem stockFiles_in_parallel :
    (∀ file ∈ stockFiles, ∃ outcome, analyzeFile stockDisk stockSettings file = .ok outcome) ∧
      ∃ a, analyzeFiles stockDisk stockSettings stockFiles = .ok a ∧
        a.files = ["bin", "bin"] ∧ a.warnings.length = 2 ∧
        Acc (fun q p => Pool.Step stockDisk stockSettings stockFiles p q)
          (Pool.start stockFiles) ∧
        ∀ p, Pool.Reaches stockDisk stockSettings stockFiles (Pool.start stockFiles) p →
          (∀ q, ¬ Pool.Step stockDisk stockSettings stockFiles p q) →
          (p.analysis stockFiles).files = ["bin", "bin"] ∧
            (p.analysis stockFiles).warnings = a.warnings := by
  obtain ⟨e, analyze_cut⟩ := analyze_cut
  have fine : ∀ file ∈ stockFiles,
      ∃ outcome, analyzeFile stockDisk stockSettings file = .ok outcome := by
    intro file mem
    simp only [stockFiles, List.mem_cons, List.not_mem_nil, or_false] at mem
    rcases mem with rfl | rfl | rfl | rfl
    · exact ⟨_, analyze_bin⟩
    · exact ⟨_, analyze_cut⟩
    · exact ⟨_, analyze_bin⟩
    · exact ⟨_, analyze_none⟩
  obtain ⟨a, sequential, files, warnings, ends, same⟩ :=
    parallel_analysis_is_sequential stockDisk stockSettings stockFiles fine
  have kept : a.files = ["bin", "bin"] := by
    rw [files]
    simp [stockFiles, reportOn_of_ok analyze_bin, reportOn_of_error analyze_cut,
      reportOn_of_error analyze_none]
  have count : a.warnings.length = 2 := by
    rw [warnings]
    simp only [stockFiles, List.flatMap_cons, List.flatMap_nil, reportOn_of_ok analyze_bin,
      reportOn_of_error analyze_cut, reportOn_of_error analyze_none]
    rfl
  refine ⟨fine, a, sequential, kept, count, ends, ?_⟩
  intro p run stuck
  obtain ⟨names, reports, -⟩ := same p run stuck
  exact ⟨names.trans kept, reports⟩

end CodeSmell
