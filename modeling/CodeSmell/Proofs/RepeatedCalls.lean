import CodeSmell.Proofs.Groups
import CodeSmell.Smell.Detection
import Mathlib.Algebra.GroupWithZero.Nat
import Mathlib.Data.List.Induction

/-!
# Repeated calls

The calls noted for a scope are grouped by their signatures, and a signature is reported if there
are more calls with it than are allowed. `Scope.repeated_calls_exact` says of every scope and all
options which signatures are reported, in which order and with which lines. No call is lost or
counted twice on the way (`Groups.sum_length_collect`).

What an allow list permits is stated by the form of its entries (`SmellOptions.allows_iff`).
-/

set_option autoImplicit false

namespace CodeSmell

/-! ## Allow lists -/

/-- An entry between slashes is a pattern. -/
theorem patternOf?_eq_some_iff (entry pattern : Text) :
    patternOf? entry = some pattern ↔ entry = "/" ++ pattern ++ "/" := by
  have slash : Text.ofString "/" = [0x2F] := rfl
  rw [slash, List.singleton_append, List.cons_append]
  unfold patternOf?
  split
  next rest =>
    rw [List.cons.injEq, and_iff_right rfl]
    split
    next body reversed =>
      have inside : rest = body.reverse ++ [0x2F] := by
        rw [← List.reverse_reverse rest, reversed, List.reverse_cons]
      rw [inside, Option.some.injEq, List.append_left_inj]
    next other =>
      refine iff_of_false nofun fun same => ?_
      apply other pattern.reverse
      rw [same, List.reverse_append]
      rfl
  next other => exact iff_of_false nofun fun same => other _ same

/-- What an allow list permits: the signatures in which a pattern of the list is found, and those
that the list names. A pattern that cannot be read is found nowhere. -/
def SmellOptions.Permits (o : SmellOptions) (signature : Text) : Prop :=
  ∃ entry ∈ o.allowCalls.getD [],
    (∃ pattern r, entry = "/" ++ pattern ++ "/" ∧ Regex.read pattern = .ok r ∧
      r.matchesIn signature = true) ∨
    (∀ pattern, entry ≠ "/" ++ pattern ++ "/") ∧ entry = signature

theorem entryAllows_iff (signature entry : Text) :
    entryAllows signature entry = true ↔
      (∃ pattern r, entry = "/" ++ pattern ++ "/" ∧ Regex.read pattern = .ok r ∧
        r.matchesIn signature = true) ∨
      (∀ pattern, entry ≠ "/" ++ pattern ++ "/") ∧ entry = signature := by
  simp only [ne_eq, ← patternOf?_eq_some_iff]
  unfold entryAllows
  cases patternOf? entry with
  | none => simp
  | some pattern =>
    cases read : Regex.read pattern with
    | ok r => simp [read]
    | error e => simp [read]

theorem SmellOptions.allows_iff (o : SmellOptions) (signature : Text) :
    o.allows signature = true ↔ o.Permits signature := by
  rw [allows, List.any_eq_true]
  simp only [entryAllows_iff]
  rfl

/-! ## Groups of calls -/

namespace Groups

variable {κ α β : Type} [DecidableEq κ]

/-- Filing a value makes one group longer by one. -/
theorem sum_length_add (groups : Groups κ α) (key : κ) (value : α) :
    ((groups.add key value).map fun g => g.2.length).sum
      = (groups.map fun g => g.2.length).sum + 1 := by
  induction groups with
  | nil => rfl
  | cons first rest ih =>
    rw [add]
    split
    · simp only [List.map_cons, List.sum_cons, List.length_append, List.length_singleton]
      omega
    · simp only [List.map_cons, List.sum_cons, ih]
      omega

/-- No value is lost and none is filed twice. -/
theorem sum_length_collect (key : β → κ) (value : β → α) (items : List β) :
    ((collect key value items).map fun g => g.2.length).sum = items.length := by
  induction items using List.reverseRecOn with
  | nil => rfl
  | append_singleton items item ih =>
    rw [collect_concat, sum_length_add, ih, List.length_append, List.length_singleton]

end Groups

/-- A signature is reported for a scope exactly if more calls with it are noted than the options
allow, not counting those that make an object, and no entry of the allow list permits it. Signatures
are reported once each, in the order in which they first occur, with the lines of their calls in the
order of the notes. The groups together hold each call once. -/
theorem Scope.repeated_calls_exact (s : Scope) (o : SmellOptions) :
    let counted := s.facts.calls.filter fun call => call.method ≠ Text.ofString "new"
    let sites (signature : Text) := counted.filter fun call => call.signature = signature
    (∃ signatures,
      Groups.InFirstOrder (counted.map Call.signature)
        (fun signature => max o.maxAllowedCalls 1 < (sites signature).length ∧
          ¬ o.Permits signature) signatures ∧
      Smell.duplicateMethodCall.find s o = signatures.map fun signature =>
        { smell := "DuplicateMethodCall"
          severity := .low
          context := s.name
          lines := some ((sites signature).map Call.line)
          message := "calls " ++ signature ++ " " ++ Text.ofInt (sites signature).length ++ " times"
          details := [("count", .int (sites signature).length), ("name", .text signature)] }) ∧
    s.facts.callGroups.keys.Nodup ∧
    (∀ g ∈ s.facts.callGroups, g.2 = (sites g.1).map Call.line) ∧
    (s.facts.callGroups.map fun g => g.2.length).sum = counted.length := by
  intro counted sites
  have groups : s.facts.callGroups = (counted.map Call.signature).eraseDups.map fun signature =>
      (signature, (sites signature).map Call.line) :=
    Groups.collect_eq Call.signature Call.line counted
  refine ⟨?_, ?_, ?_, ?_⟩
  · refine ⟨(counted.map Call.signature).eraseDups.filter fun signature =>
      o.callLimit < (sites signature).length && !o.allows signature, ?_, ?_⟩
    · obtain ⟨mem_iff, order⟩ := Groups.inFirstOrder_filter (counted.map Call.signature)
        fun signature => o.callLimit < (sites signature).length && !o.allows signature
      refine ⟨fun signature => ?_, order⟩
      rw [mem_iff, Bool.and_eq_true, Bool.not_eq_true', decide_eq_true_eq, Bool.eq_false_iff,
        ne_eq, o.allows_iff]
      rfl
    · change s.duplicateCalls o = _
      rw [duplicateCalls, groups, List.filter_map, List.map_map]
      simp only [Function.comp_def, List.length_map]
      rfl
  · exact Groups.nodup_keys_collect Call.signature Call.line counted
  · intro g mem
    rw [groups] at mem
    obtain ⟨signature, -, rfl⟩ := List.mem_map.1 mem
    rfl
  · exact Groups.sum_length_collect Call.signature Call.line counted

end CodeSmell
