import CodeSmell.Proofs.Encoding
import CodeSmell.Proofs.Fields
import CodeSmell.Watcher

/-!
# Batches of changes

Changed paths wait in a queue until they are handed over together. Events are added and batches are
handed over in any order: nothing says that a flush finds something, or that it comes only once.
`Queue.calls` lists what each step of such a run hands over.

The queue holds the paths that were added since the last flush (`Queue.mem_paths_run`), and as
fields it holds them in increasing order. So a flush hands over exactly these paths, and a path that
was added is in the next batch or still waits. No batch has a path for which no event was added
since the batch before (`Queue.countP_calls_le`).
-/

set_option autoImplicit false

namespace CodeSmell

/-- What is done to a queue: an event is added, or what waits is handed over. -/
inductive QueueStep where
  | add (e : WatchEvent)
  | flush

/-- The path that a step adds. -/
def QueueStep.path? : QueueStep → Option String
  | .add e => some e.path
  | .flush => none

/-- Since the last flush of some steps an event was added for a path. -/
def AddedSinceFlush (steps : List QueueStep) (path : String) : Prop :=
  ∃ before e after, steps = before ++ .add e :: after ∧ .flush ∉ after ∧ e.path = path

theorem not_addedSinceFlush_nil (path : String) : ¬ AddedSinceFlush [] path := by
  rintro ⟨before, e, after, whole, -, -⟩
  simp at whole

/-- One more step: it adds the path itself, or it is no flush and the path was added before. -/
theorem addedSinceFlush_concat {steps : List QueueStep} {s : QueueStep} {path : String} :
    AddedSinceFlush (steps ++ [s]) path ↔
      s.path? = some path ∨ s ≠ .flush ∧ AddedSinceFlush steps path := by
  constructor
  · rintro ⟨before, e, after, whole, unflushed, rfl⟩
    rcases List.eq_nil_or_concat after with rfl | ⟨after, last, rfl⟩
    · obtain ⟨-, same⟩ := List.append_inj' whole rfl
      obtain rfl := List.singleton_inj.1 same
      exact .inl rfl
    · rw [List.concat_eq_append, ← List.cons_append, ← List.append_assoc] at whole
      obtain ⟨rfl, same⟩ := List.append_inj' whole rfl
      obtain rfl := List.singleton_inj.1 same
      rw [List.concat_eq_append, List.mem_append, not_or, List.mem_singleton] at unflushed
      exact .inr ⟨Ne.symm unflushed.2, before, e, after, rfl, unflushed.1, rfl⟩
  · rintro (added | ⟨other, before, e, after, rfl, unflushed, rfl⟩)
    · cases s with
      | add e => exact ⟨steps, e, [], rfl, List.not_mem_nil, Option.some.inj added⟩
      | flush => cases added
    · refine ⟨before, e, after ++ [s], by rw [List.append_assoc]; rfl, ?_, rfl⟩
      rw [List.mem_append, not_or, List.mem_singleton]
      exact ⟨unflushed, Ne.symm other⟩

namespace Queue

/-! ## Runs -/

/-- The paths that wait. -/
def paths (q : Queue) : List String := q.names

/-- The queue after a step, and the batch that the step hands over, if there is one. -/
def step (q : Queue) : QueueStep → Queue × Option (List String)
  | .add e => (q.add e, none)
  | .flush => (q.flush.2, q.flush.1)

/-- The queue after some steps. -/
def run (q : Queue) (steps : List QueueStep) : Queue := steps.foldl (fun q s => (q.step s).1) q

/-- What each of some steps hands over. -/
def calls (q : Queue) : List QueueStep → List (Option (List String))
  | [] => []
  | s :: steps => (q.step s).2 :: calls (q.step s).1 steps

theorem run_concat (q : Queue) (steps : List QueueStep) (s : QueueStep) :
    q.run (steps ++ [s]) = ((q.run steps).step s).1 := by
  rw [run, List.foldl_append]
  rfl

theorem calls_concat (q : Queue) (steps : List QueueStep) (s : QueueStep) :
    q.calls (steps ++ [s]) = q.calls steps ++ [((q.run steps).step s).2] := by
  induction steps generalizing q with
  | nil => rfl
  | cons first steps ih =>
    rw [List.cons_append, calls, ih]
    rfl

/-- A step hands over what waits after the steps before it. -/
theorem getElem?_calls (q : Queue) (steps : List QueueStep) (i : Nat) :
    (q.calls steps)[i]? = steps[i]?.map fun s => ((q.run (steps.take i)).step s).2 := by
  induction steps generalizing q i with
  | nil => rfl
  | cons first steps ih =>
    cases i with
    | zero => rfl
    | succ i =>
      rw [calls, List.getElem?_cons_succ, ih]
      rfl

/-! ## What waits -/

theorem paths_flush (q : Queue) : q.flush.1 = if q.paths = [] then none else some q.paths := by
  obtain ⟨entries, increasing⟩ := q
  cases entries <;> rfl

/-- The paths that wait increase byte by byte. -/
theorem pairwise_paths (q : Queue) :
    q.paths.Pairwise fun path path' => Text.ofString path < Text.ofString path' := by
  rw [paths, Fields.names, List.pairwise_map]
  exact q.increasing.imp Text.ofString_lt

theorem mem_paths_step {q : Queue} {s : QueueStep} {path : String} :
    path ∈ (q.step s).1.paths ↔ s.path? = some path ∨ s ≠ .flush ∧ path ∈ q.paths := by
  cases s with
  | add e =>
    refine Fields.mem_names_insert.trans ?_
    simp [QueueStep.path?, paths, eq_comm]
  | flush =>
    rw [step, flush]
    split <;> simp [QueueStep.path?, paths, Fields.names, Fields.empty]

/-- The paths that wait are those that were added since the last flush. -/
theorem mem_paths_run {steps : List QueueStep} {path : String} :
    path ∈ (run .empty steps).paths ↔ AddedSinceFlush steps path := by
  induction steps using List.reverseRecOn with
  | nil => exact iff_of_false List.not_mem_nil (not_addedSinceFlush_nil path)
  | append_singleton steps s ih =>
    rw [run_concat, mem_paths_step, addedSinceFlush_concat, ih]

theorem paths_run_eq_nil {steps : List QueueStep} :
    (run .empty steps).paths = [] ↔ ¬ ∃ path, AddedSinceFlush steps path := by
  simp only [List.eq_nil_iff_forall_not_mem, mem_paths_run, not_exists]

/-- A path is handed over, or waits, at most as often as it was added. -/
theorem countP_calls_le (steps : List QueueStep) (path : String) :
    (calls .empty steps).countP (fun call => call.any (·.contains path))
        + (if path ∈ (run .empty steps).paths then 1 else 0)
      ≤ steps.countP fun s => s.path? = some path := by
  induction steps using List.reverseRecOn with
  | nil => exact Nat.le_refl 0
  | append_singleton steps s ih =>
    rw [calls_concat, run_concat, List.countP_append, List.countP_append, List.countP_singleton,
      List.countP_singleton]
    cases s with
    | add e =>
      have handed : ((run .empty steps).step (.add e)).2 = none := rfl
      simp only [handed, Option.any_none, Bool.false_eq_true, if_false, decide_eq_true_eq]
      by_cases same : (QueueStep.add e).path? = some path
      -- the event makes up for one more path that waits
      · rw [if_pos (mem_paths_step.2 (.inl same)), if_pos same]
        split at ih <;> omega
      · have waits : path ∈ ((run .empty steps).step (.add e)).1.paths ↔
            path ∈ (run .empty steps).paths := by
          rw [mem_paths_step]
          simp [same]
        simpa [same, waits] using ih
    | flush =>
      have emptied : path ∉ ((run .empty steps).step .flush).1.paths := by
        rw [mem_paths_step]
        simp [QueueStep.path?]
      -- what waited is handed over
      have handed : ((run .empty steps).step .flush).2.any (·.contains path)
          = decide (path ∈ (run .empty steps).paths) := by
        rw [step, paths_flush]
        split
        next none => simp [none]
        next => simp
      rw [if_neg emptied, handed]
      simpa [QueueStep.path?] using ih

/-- What a flush hands over. -/
theorem getElem?_calls_flush {steps : List QueueStep} {i : Nat}
    (flushes : steps[i]? = some .flush) :
    (calls .empty steps)[i]? = some
      (if (run .empty (steps.take i)).paths = [] then none
        else some (run .empty (steps.take i)).paths) := by
  rw [getElem?_calls, flushes, Option.map_some, step, paths_flush]

/-- The first flush behind an event hands over its path. -/
theorem exists_batch_of_next_flush (before : List QueueStep) (e : WatchEvent)
    {between : List QueueStep} (rest : List QueueStep) (unflushed : .flush ∉ between) :
    ∃ batch, (calls .empty (before ++ .add e :: (between ++ .flush :: rest)))[
        before.length + 1 + between.length]? = some (some batch) ∧ e.path ∈ batch := by
  have whole : before ++ .add e :: (between ++ .flush :: rest)
      = (before ++ .add e :: between) ++ .flush :: rest := by simp
  have place : before.length + 1 + between.length = (before ++ .add e :: between).length := by
    simp only [List.length_append, List.length_cons]
    omega
  have waits : e.path ∈ (run .empty (before ++ .add e :: between)).paths :=
    mem_paths_run.2 ⟨before, e, between, rfl, unflushed, rfl⟩
  have flushes : ((before ++ .add e :: between) ++ .flush :: rest)[
      (before ++ .add e :: between).length]? = some .flush := by simp
  refine ⟨_, ?_, waits⟩
  rw [whole, place, getElem?_calls_flush flushes, List.take_left, if_neg (List.ne_nil_of_mem waits)]

/-- In every run of a queue a flush hands over a batch exactly if an event was added since the flush
before, and the batch lists the paths of these events once each, in the order of their bytes.
Nothing else hands over a batch. What waits at the end is what was added since the last flush. A
path that was added is therefore in the batch of the next flush, or waits; and it is not handed over
more often than it was added. -/
theorem queue_delivers_each_path_once (steps : List QueueStep) :
    (∀ i, steps[i]? = some .flush → ∃ call, (calls .empty steps)[i]? = some call ∧
      (call.isSome ↔ ∃ path, AddedSinceFlush (steps.take i) path) ∧
      ∀ batch, call = some batch →
        (batch.Pairwise fun path path' => Text.ofString path < Text.ofString path') ∧
          ∀ path, path ∈ batch ↔ AddedSinceFlush (steps.take i) path) ∧
    (∀ (i : Nat) (batch : List String),
      (calls .empty steps)[i]? = some (some batch) → steps[i]? = some .flush) ∧
    (∀ path, path ∈ (run .empty steps).paths ↔ AddedSinceFlush steps path) ∧
    (∀ before e after, steps = before ++ .add e :: after →
      (∃ between rest batch, after = between ++ .flush :: rest ∧ .flush ∉ between ∧
        (calls .empty steps)[before.length + 1 + between.length]? = some (some batch) ∧
          e.path ∈ batch) ∨
      .flush ∉ after ∧ e.path ∈ (run .empty steps).paths) ∧
    ∀ path, (calls .empty steps).countP (fun call => call.any (·.contains path))
        + (if path ∈ (run .empty steps).paths then 1 else 0)
      ≤ steps.countP fun s => s.path? = some path := by
  refine ⟨?_, ?_, fun _ => mem_paths_run, ?_, countP_calls_le steps⟩
  · intro i flushes
    refine ⟨_, getElem?_calls_flush flushes, ?_, ?_⟩
    · rw [← not_iff_not, ← paths_run_eq_nil]
      split <;> simp [*]
    · intro batch handed
      split at handed
      · cases handed
      · obtain rfl := Option.some.inj handed
        exact ⟨pairwise_paths _, fun _ => mem_paths_run⟩
  · intro i batch handed
    rw [getElem?_calls] at handed
    obtain ⟨s, there, handed⟩ := Option.map_eq_some_iff.1 handed
    cases s with
    | add e => cases handed
    | flush => exact there
  · rintro before e after rfl
    by_cases flushed : .flush ∈ after
    · left
      obtain ⟨between, rest, rfl, unflushed⟩ := List.eq_append_cons_of_mem flushed
      obtain ⟨batch, handed, mem⟩ := exists_batch_of_next_flush before e rest unflushed
      exact ⟨between, rest, batch, rfl, unflushed, handed, mem⟩
    · exact .inr ⟨flushed, mem_paths_run.2 ⟨before, e, after, rfl, flushed, rfl⟩⟩

end Queue

end CodeSmell
