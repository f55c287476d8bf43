import CodeSmell.Proofs.RollUp
import CodeSmell.Smell.Detection
import Mathlib.Data.Int.ConditionallyCompleteOrder
import Mathlib.Data.List.Induction
import Mathlib.Order.Bounds.Basic

/-!
# Envied objects

A method envies the objects that it uses most if it uses them more than its own object. The names
with the largest number of uses can be found in a single pass that keeps the names of the largest
number so far and starts over whenever a larger one comes (`References.leaders_eq`).
`Forest.envied_names_of_history` tells of any history, from the observations alone, which names are
reported for a scope and with which lines.
-/

set_option autoImplicit false

namespace CodeSmell

namespace References

/-! ## The largest number of uses -/

theorem max?_eq_highest (refs : References) :
    (0 :: refs.map fun r => r.2.length).max? = some refs.highest := rfl

theorem length_le_highest {refs : References} {r : Text × List Int} (mem : r ∈ refs) :
    r.2.length ≤ refs.highest :=
  (List.max?_eq_some_iff.1 refs.max?_eq_highest).2 _
    (List.mem_cons_of_mem 0 (List.mem_map_of_mem mem))

theorem highest_eq_zero_or_exists (refs : References) :
    refs.highest = 0 ∨ ∃ r ∈ refs, r.2.length = refs.highest := by
  have attained := (List.max?_eq_some_iff.1 refs.max?_eq_highest).1
  rcases List.mem_cons.1 attained with zero | mem
  · exact Or.inl zero
  · exact Or.inr (List.mem_map.1 mem)

theorem highest_concat (refs : References) (r : Text × List Int) :
    highest (refs ++ [r]) = max refs.highest r.2.length := by
  rw [highest, List.map_append, List.foldl_append]
  rfl

theorem mostPopular_concat (refs : References) (r : Text × List Int) :
    mostPopular (refs ++ [r])
      = (refs.filter fun q => q.2.length = max refs.highest r.2.length).map Prod.fst
        ++ if refs.highest ≤ r.2.length then [r.1] else [] := by
  rw [mostPopular, highest_concat, List.filter_append, List.map_append]
  congr 1
  by_cases most : refs.highest ≤ r.2.length
  · simp [most]
  · have fewer : r.2.length ≠ max refs.highest r.2.length := by omega
    simp [most, fewer]

/-! ## Finding it in a single pass -/

/-- One more name with its uses, after the names with the largest number of uses so far and that
number. -/
def follow (best : List Text × Nat) (r : Text × List Int) : List Text × Nat :=
  if best.2 < r.2.length then ([r.1], r.2.length)
  else if r.2.length = best.2 then (best.1 ++ [r.1], best.2)
  else best

/-- The names with the largest number of uses and that number, found in a single pass. -/
def leaders (refs : References) : List Text × Nat := refs.foldl follow ([], 0)

/-- The pass comes to the names with the largest number of uses, in order of first use. -/
theorem leaders_eq (refs : References) : refs.leaders = (refs.mostPopular, refs.highest) := by
  induction refs using List.reverseRecOn with
  | nil => rfl
  | append_singleton refs r ih =>
    have next : leaders (refs ++ [r]) = follow (mostPopular refs, highest refs) r := by
      rw [← ih, leaders, List.foldl_append]
      rfl
    rw [next, follow, mostPopular_concat, highest_concat]
    rcases Nat.lt_trichotomy (highest refs) r.2.length with more | same | less
    · -- none of the names before has as many uses
      have none : refs.filter (fun q => q.2.length = r.2.length) = [] := by
        rw [List.filter_eq_nil_iff]
        intro q mem equal
        have bound := length_le_highest mem
        have equal := of_decide_eq_true equal
        omega
      simp [more, Nat.le_of_lt more, none]
    · simp [← same, mostPopular]
    · have fewer : ¬ highest refs < r.2.length := Nat.lt_asymm less
      simp [fewer, less, Nat.max_eq_left (Nat.le_of_lt less), Nat.ne_of_lt less, mostPopular]

end References

/-! ## Uses by name -/

namespace Facts

open References

variable (uses : List (Text × Int))

theorem usesByName_eq_collect : usesByName uses = Groups.collect Prod.fst Prod.snd uses :=
  (Groups.collect_eq Prod.fst Prod.snd uses).symm

theorem length_filter_uses (name : Text) :
    (uses.filter fun use => use.1 = name).length = (uses.map Prod.fst).count name := by
  rw [List.count, List.countP_map, List.countP_eq_length_filter]
  refine congrArg List.length (List.filter_congr fun use _ => ?_)
  exact (beq_eq_decide use.1 name).symm

theorem mem_usesByName_iff (r : Text × List Int) :
    r ∈ usesByName uses ↔ r.1 ∈ uses.map Prod.fst ∧
      r.2 = (uses.filter fun use => use.1 = r.1).map Prod.snd := by
  rw [usesByName, List.mem_map]
  constructor
  · rintro ⟨name, mem, rfl⟩
    exact ⟨List.mem_eraseDups.1 mem, rfl⟩
  · rintro ⟨mem, lines⟩
    exact ⟨r.1, List.mem_eraseDups.2 mem, Prod.ext rfl lines.symm⟩

theorem length_of_mem_usesByName {r : Text × List Int} (mem : r ∈ usesByName uses) :
    r.2.length = (uses.map Prod.fst).count r.1 := by
  rw [((mem_usesByName_iff uses r).1 mem).2, List.length_map, length_filter_uses]

/-- The largest number of uses is that of some name, and no name has more. -/
theorem highest_usesByName :
    uses = [] ∧ (usesByName uses).highest = 0 ∨
      IsGreatest {n | ∃ name ∈ uses.map Prod.fst, n = (uses.map Prod.fst).count name}
        (usesByName uses).highest := by
  have bound : ∀ name ∈ uses.map Prod.fst,
      (uses.map Prod.fst).count name ≤ (usesByName uses).highest := by
    intro name mem
    have listed := (mem_usesByName_iff uses
      (name, (uses.filter fun use => use.1 = name).map Prod.snd)).2 ⟨mem, rfl⟩
    rw [← length_of_mem_usesByName uses listed]
    exact length_le_highest listed
  rcases highest_eq_zero_or_exists (usesByName uses) with zero | ⟨r, mem, most⟩
  · -- a name that is used at all is used at least once
    cases uses with
    | nil => exact Or.inl ⟨rfl, rfl⟩
    | cons use rest =>
      have first : use.1 ∈ (use :: rest).map Prod.fst := List.mem_cons_self
      have used := List.count_pos_iff.2 first
      have none := bound use.1 first
      omega
  · refine Or.inr ⟨⟨r.1, ((mem_usesByName_iff uses r).1 mem).1, ?_⟩, ?_⟩
    · rw [← most, length_of_mem_usesByName uses mem]
    · rintro n ⟨name, used, rfl⟩
      exact bound name used

/-- The names with the largest number of uses are listed in order of first use. -/
theorem mostPopular_usesByName :
    Groups.InFirstOrder (uses.map Prod.fst)
      (fun name => (uses.map Prod.fst).count name = (usesByName uses).highest)
      (usesByName uses).mostPopular := by
  have chosen : (usesByName uses).mostPopular = (uses.map Prod.fst).eraseDups.filter fun name =>
      (uses.map Prod.fst).count name = (usesByName uses).highest := by
    rw [mostPopular]
    generalize (usesByName uses).highest = most
    rw [usesByName, List.filter_map, List.map_map]
    simp only [Function.comp_def, List.length_map, length_filter_uses, List.map_id']
  obtain ⟨mem_iff, order⟩ := Groups.inFirstOrder_filter (uses.map Prod.fst) fun name =>
    (uses.map Prod.fst).count name = (usesByName uses).highest
  rw [chosen]
  exact ⟨fun name => by rw [mem_iff, decide_eq_true_eq], order⟩

/-- The lines under a name are those of its uses. -/
theorem mem_get_usesByName (name : Text) (line : Int) :
    line ∈ (usesByName uses).get name ↔ (name, line) ∈ uses := by
  rw [usesByName_eq_collect, Groups.get_collect]
  simp

end Facts

/-! ## What is reported -/

namespace Scope

/-- The span of some lines is the least and the greatest of them. -/
theorem span_eq {lines : List Int} (nonempty : lines ≠ []) :
    ∃ first last, span lines = [first, last] ∧ IsLeast {line | line ∈ lines} first ∧
      IsGreatest {line | line ∈ lines} last := by
  cases lines with
  | nil => exact absurd rfl nonempty
  | cons line rest =>
    have least : (line :: rest).min? = some (rest.foldl min line) := rfl
    have greatest : (line :: rest).max? = some (rest.foldl max line) := rfl
    exact ⟨_, _, rfl, List.min?_eq_some_iff.1 least, List.max?_eq_some_iff.1 greatest⟩

/-- The span of the uses of a name that is used most often. -/
theorem span_of_mem_mostPopular {uses : List (Text × Int)} {name : Text}
    (popular : name ∈ (Facts.usesByName uses).mostPopular) :
    ∃ first last, span ((Facts.usesByName uses).get name) = [first, last] ∧
      IsLeast {line | (name, line) ∈ uses} first ∧
      IsGreatest {line | (name, line) ∈ uses} last := by
  -- only names that have been used are among the most popular ones
  have used := (((Facts.mostPopular_usesByName uses).mem_iff name).1 popular).1
  obtain ⟨use, mem, rfl⟩ := List.mem_map.1 used
  have nonempty := List.ne_nil_of_mem ((Facts.mem_get_usesByName uses use.1 use.2).2 mem)
  simpa only [Facts.mem_get_usesByName] using span_eq nonempty

theorem envies_eq_ite (s : Scope) :
    s.envies =
      if 0 < s.facts.selfAffinity ∧ s.facts.selfAffinity < s.facts.references.highest then
        s.facts.references.mostPopular.map fun name =>
          s.warning .featureEnvy (span (s.facts.references.get name))
            ("refers to " ++ name ++ " more than self (maybe move it to another class?)")
            [("name", .text name)]
      else [] := by
  have silent : (s.facts.selfAffinity = 0 ∨ s.facts.references.highest ≤ s.facts.selfAffinity) ↔
      ¬ (0 < s.facts.selfAffinity ∧ s.facts.selfAffinity < s.facts.references.highest) := by
    omega
  rw [envies]
  simp only [silent, ite_not]

end Scope

namespace Forest

/-- The names that are reported for a scope after any history, from the observations that roll up to
it. Nothing is reported unless the scope uses its own object, and uses some name more often. Then
the names that are used most often are reported, once each and in order of first use, with the least
and the greatest line of their uses. -/
theorem envied_names_of_history (events : List Event) (proper : Proper events) (x : Nat)
    (isOpen : x < (openings events).length) (o : SmellOptions) :
    ∃ s outer, (run events).chain x = s :: outer ∧
      let rolled := observed events fun on _ => RollsUp events on x
      let uses := rolled.filterMap Observation.reference?
      let names := uses.map Prod.fst
      let affinity := rolled.count .useOfSelf + rolled.count .dependsOnSelf
      let most := s.facts.references.highest
      let popular := s.facts.references.mostPopular
      (uses = [] ∧ most = 0 ∨ IsGreatest {n | ∃ name ∈ names, n = names.count name} most) ∧
      Groups.InFirstOrder names (fun name => names.count name = most) popular ∧
      s.facts.references.leaders = (popular, most) ∧
      ∃ first last : Text → Int,
        (∀ name ∈ popular, IsLeast {line | (name, line) ∈ uses} (first name) ∧
          IsGreatest {line | (name, line) ∈ uses} (last name)) ∧
        Smell.featureEnvy.find s o =
          if 0 < affinity ∧ affinity < most then popular.map fun name =>
            { smell := "FeatureEnvy"
              severity := .medium
              context := s.name
              lines := some [first name, last name]
              message := "refers to " ++ name ++ " more than self (maybe move it to another class?)"
              details := [("name", .text name)] }
          else [] := by
  obtain ⟨s, outer, chain, -, facts⟩ := exists_chain_run proper isOpen
  refine ⟨s, outer, chain, ?_⟩
  intro rolled uses names affinity most popular
  obtain ⟨references, selfUsage, dependsOnSelf⟩ :=
    uses_noteAll_of_filter_eq (filter_rolls_observed events x s.kind)
  rw [← facts] at references selfUsage dependsOnSelf
  have own : s.facts.selfAffinity = affinity := by
    rw [Facts.selfAffinity, selfUsage, dependsOnSelf]
  have spans : ∀ name ∈ popular, ∃ first last,
      Scope.span (s.facts.references.get name) = [first, last] ∧
        IsLeast {line | (name, line) ∈ uses} first ∧
        IsGreatest {line | (name, line) ∈ uses} last := by
    intro name mem
    rw [references]
    exact Scope.span_of_mem_mostPopular (references ▸ mem)
  choose! first last spans least greatest using spans
  refine ⟨?_, ?_, References.leaders_eq _, first, last, ?_, ?_⟩
  · change uses = [] ∧ s.facts.references.highest = 0 ∨ IsGreatest _ s.facts.references.highest
    rw [references]
    exact Facts.highest_usesByName uses
  · change Groups.InFirstOrder names (fun name => names.count name = s.facts.references.highest)
      s.facts.references.mostPopular
    rw [references]
    exact Facts.mostPopular_usesByName uses
  · exact fun name mem => ⟨least name mem, greatest name mem⟩
  · change s.envies = _
    rw [Scope.envies_eq_ite, own]
    refine if_congr Iff.rfl (List.map_congr_left fun name mem => ?_) rfl
    rw [spans name mem]
    rfl

/-- The method uses its own object once, in the yield, and the item twice, there and in the block
around it. The later of the two uses was met first. -/
theorem cartHistory_envied_item :
    Proper cartHistory ∧ 2 < (openings cartHistory).length ∧
    ∃ s outer, (run cartHistory).chain 2 = s :: outer ∧
      (s.facts.references.mostPopular, s.facts.references.highest) = ([Text.ofString "item"], 2) ∧
      Smell.featureEnvy.find s {} =
        [{ smell := "FeatureEnvy"
           severity := .medium
           context := "Cart#total"
           lines := some [3, 4]
           message := "refers to item more than self (maybe move it to another class?)"
           details := [("name", .text "item")] }] := by
  refine ⟨by decide, by decide, ?_⟩
  obtain ⟨s, outer, chain, -, -, -, first, last, spans, found⟩ :=
    envied_names_of_history cartHistory (by decide) 2 (by decide) {}
  have known : ((run cartHistory).chain 2).head?.map (fun s =>
      (s.name, s.facts.references.mostPopular, s.facts.references.highest))
      = some (Text.ofString "Cart#total", [Text.ofString "item"], 2) := by decide
  rw [chain, List.head?_cons, Option.map_some, Option.some_inj, Prod.mk.injEq] at known
  obtain ⟨name, popular⟩ := known
  refine ⟨s, outer, chain, popular, ?_⟩
  obtain ⟨popular, most⟩ := Prod.mk.inj popular
  obtain ⟨least, greatest⟩ := spans (Text.ofString "item") (popular ▸ List.mem_singleton_self _)
  have uses : ∀ use ∈ (observed cartHistory fun on _ => RollsUp cartHistory on 2).filterMap
      Observation.reference?, use.1 = Text.ofString "item" → 3 ≤ use.2 ∧ use.2 ≤ 4 := by decide
  have firstLine : first (Text.ofString "item") = 3 :=
    least.unique ⟨by decide, fun _ use => (uses _ use rfl).1⟩
  have lastLine : last (Text.ofString "item") = 4 :=
    greatest.unique ⟨by decide, fun _ use => (uses _ use rfl).2⟩
  rw [found, popular, most, name, List.map_singleton, firstLine, lastLine]
  rfl

end Forest

end CodeSmell
