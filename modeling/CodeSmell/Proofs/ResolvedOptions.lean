import CodeSmell.Proofs.NumericSettings
import CodeSmell.Proofs.RepeatedCalls

/-!
# Options that valid settings can come to

Settings are checked once, and the check resolves nothing: it looks at the general options of the
smells that have limits, and at each override by itself. A scope gets options that are put together
from both. `Settings.resolved_options_in_range` says that the check is enough all the same: whatever
names a scope has, its limits are in range and its patterns can be read. So two precautions in the
search for repeated calls are never needed, the least limit of one (`SmellOptions.callLimit`) and
the rule that a pattern which cannot be read allows nothing (`SmellOptions.allowsStrictly` does
without it).

Overrides are tables, and tables have no order. Whether settings are accepted does not depend on the
order in which scopes and smells happen to be listed (`Overrides.Reordered`).
-/

set_option autoImplicit false

namespace CodeSmell

/-! ## Patterns -/

/-- Every pattern of an allow list can be read. -/
def PatternsReadable (entries : Option (List Text)) : Prop :=
  ∀ entry ∈ entries.getD [], ∀ pattern, entry = "/" ++ pattern ++ "/" →
    ∃ r, Regex.read pattern = .ok r

theorem badPattern?_eq_none_iff (entries : Option (List Text)) :
    badPattern? entries = none ↔ PatternsReadable entries := by
  simp only [badPattern?, PatternsReadable, List.findSome?_eq_none_iff, ← patternOf?_eq_some_iff]
  refine forall₂_congr fun entry _ => ?_
  cases patternOf? entry with
  | none => simp
  | some pattern => cases read : Regex.read pattern <;> simp [read]

/-- Whether an entry allows a signature. A pattern that cannot be read is an error. -/
def entryAllowsStrictly (signature entry : Text) : Except (Text × RegexError) Bool :=
  (patternOf? entry).elim (.ok (entry = signature)) fun pattern =>
    ((Regex.read pattern).map fun r => r.matchesIn signature).mapError fun e => (entry, e)

/-- Whether the options allow a signature to be repeated. The entries are tried in their order, and
one with a pattern that cannot be read is an error. -/
def SmellOptions.allowsStrictly (o : SmellOptions) (signature : Text) :
    Except (Text × RegexError) Bool :=
  (o.allowCalls.getD []).anyM (entryAllowsStrictly signature)

theorem entryAllowsStrictly_eq_ok {entry : Text}
    (readable : ∀ pattern, entry = "/" ++ pattern ++ "/" → ∃ r, Regex.read pattern = .ok r)
    (signature : Text) :
    entryAllowsStrictly signature entry = .ok (entryAllows signature entry) := by
  simp only [← patternOf?_eq_some_iff] at readable
  rw [entryAllowsStrictly, entryAllows]
  cases form : patternOf? entry with
  | none => rfl
  | some pattern =>
    obtain ⟨r, read⟩ := readable pattern form
    simp only [Option.elim_some, read]
    rfl

theorem SmellOptions.allowsStrictly_eq_ok {o : SmellOptions}
    (readable : PatternsReadable o.allowCalls) (signature : Text) :
    o.allowsStrictly signature = .ok (o.allows signature) := by
  rw [PatternsReadable] at readable
  rw [allowsStrictly, allows]
  generalize o.allowCalls.getD [] = entries at readable ⊢
  induction entries with
  | nil => rfl
  | cons entry entries ih =>
    obtain ⟨here, below⟩ := List.forall_mem_cons.1 readable
    rw [List.anyM, entryAllowsStrictly_eq_ok here, List.any_cons]
    cases entryAllows signature entry with
    -- the first entry that allows the signature ends the search
    | true => rfl
    | false => exact ih below

/-! ## Overrides -/

/-- An override whose limits are in range and whose patterns can be read. -/
structure SmellOverride.Sound (o : SmellOverride) : Prop where
  calls : ∀ n ∈ o.maxAllowedCalls, 1 ≤ n
  held : ∀ n ∈ o.maxInstanceVariables, 0 ≤ n
  patterns : PatternsReadable o.allowCalls

namespace SmellOverride

variable {o : SmellOverride} {base : SmellOptions}

theorem not_any_lt_iff (limit : Option Int) (bound : Int) :
    ¬ limit.any (· < bound) = true ↔ ∀ n ∈ limit, bound ≤ n := by
  cases limit <;> simp

/-- Overrides are checked in all their parts, whatever smell they are for. -/
theorem fault?_eq_none_iff (smell : Text) (o : SmellOverride) :
    o.fault? smell = none ↔ Smell.ofName? smell ≠ none ∧ o.Sound := by
  have patterns := badPattern?_eq_none_iff o.allowCalls
  simp only [fault?, check_eq_none_iff, Option.map_eq_none_iff, patterns, not_any_lt_iff,
    Option.isNone_iff_eq_none]
  constructor
  · rintro ⟨known, calls, held, readable⟩
    exact ⟨known, calls, held, readable⟩
  · rintro ⟨known, calls, held, readable⟩
    exact ⟨known, calls, held, readable⟩

/-- What holds of a value that is set, if there is one, and of the general value holds of the one
that counts. -/
theorem holds_getD {α : Type} {p : α → Prop} {own : Option α} {general : α}
    (ofOwn : ∀ a ∈ own, p a) (ofGeneral : p general) : p (own.getD general) := by
  cases own with
  | none => exact ofGeneral
  | some a => exact ofOwn a rfl

namespace Sound

theorem one_le_calls_over (sound : o.Sound) (general : 1 ≤ base.maxAllowedCalls) :
    1 ≤ (o.over base).maxAllowedCalls :=
  holds_getD (p := fun n => 1 ≤ n) sound.calls general

theorem zero_le_held_over (sound : o.Sound) (general : 0 ≤ base.maxInstanceVariables) :
    0 ≤ (o.over base).maxInstanceVariables :=
  holds_getD (p := fun n => 0 ≤ n) sound.held general

/-- An override has a list of its own or leaves the general one as it is: lists are not mixed. -/
theorem patterns_over (sound : o.Sound) (general : PatternsReadable base.allowCalls) :
    PatternsReadable (o.over base).allowCalls := by
  have patterns := sound.patterns
  rw [SmellOverride.over]
  cases given : o.allowCalls with
  | none => exact general
  | some entries =>
    rw [given] at patterns
    exact patterns

end Sound

end SmellOverride

namespace Overrides

/-- An override for a smell is listed under a scope. -/
def Lists (overrides : Overrides) (scope smell : Text) (o : SmellOverride) : Prop :=
  ∃ smells, (scope, smells) ∈ overrides ∧ (smell, o) ∈ smells

theorem lists_of_find? {overrides : Overrides} {smell name : Text} {o : SmellOverride}
    (found : overrides.find? smell name = some o) : ∃ scope, overrides.Lists scope smell o := by
  rw [Overrides.find?] at found
  split at found
  next entry first =>
    refine ⟨entry.1, entry.2, List.mem_of_find?_eq_some first, ?_⟩
    rw [lookup_eq_find?, Option.map_eq_some_iff] at found
    obtain ⟨field, here, rfl⟩ := found
    have named : smell = field.1 := by simpa using List.find?_some here
    rw [named]
    exact List.mem_of_find?_eq_some here
  next => cases found

/-- The same overrides in another order, of the scopes as well as of the smells of a scope. -/
def Reordered (overrides overrides' : Overrides) : Prop :=
  ∃ between : Overrides,
    List.Forall₂ (fun scope scope' => scope.1 = scope'.1 ∧ scope.2.Perm scope'.2)
      overrides between ∧ between.Perm overrides'

/-- What is listed does not depend on the order. -/
theorem Reordered.lists_iff {overrides overrides' : Overrides}
    (reordered : overrides.Reordered overrides') (scope smell : Text) (o : SmellOverride) :
    overrides'.Lists scope smell o ↔ overrides.Lists scope smell o := by
  obtain ⟨between, sameScopes, perm⟩ := reordered
  simp only [Lists, ← perm.mem_iff]
  clear perm
  induction sameScopes with
  | nil => rfl
  | cons same _ ih =>
    rename_i first first' _ _ _
    obtain ⟨name, smells⟩ := first
    obtain ⟨name', smells'⟩ := first'
    obtain ⟨rfl, perm⟩ := same
    simp only [List.mem_cons, or_and_right, exists_or, ih, Prod.mk.injEq]
    -- the smells of the first scope are the same up to their order
    refine or_congr_left ⟨?_, ?_⟩
    · rintro ⟨_, ⟨rfl, rfl⟩, mem⟩
      exact ⟨smells, ⟨rfl, rfl⟩, perm.mem_iff.2 mem⟩
    · rintro ⟨_, ⟨rfl, rfl⟩, mem⟩
      exact ⟨smells', ⟨rfl, rfl⟩, perm.mem_iff.1 mem⟩

end Overrides

/-! ## Settings -/

namespace Settings

variable {s : Settings}

theorem Valid.fault?_of_lists (valid : s.Valid) {scope smell : Text} {o : SmellOverride}
    (listed : s.overrides.Lists scope smell o) : o.fault? smell = none := by
  obtain ⟨smells, inSettings, inScope⟩ := listed
  exact valid.overrides _ inSettings _ inScope

/-- What holds of the general options, and of these under any sound override, holds of the options
of every scope. -/
theorem Valid.resolve_induction (valid : s.Valid) {smell : Text} {p : SmellOptions → Prop}
    (general : p (s.general smell))
    (overridden : ∀ o : SmellOverride, o.Sound → p (o.over (s.general smell)))
    (names : List Text) : p (s.resolve smell names) := by
  rw [resolve]
  cases found : names.findSome? (s.overrides.find? smell) with
  | none => exact general
  | some o =>
    obtain ⟨name, -, lookup⟩ := List.exists_of_findSome?_eq_some found
    obtain ⟨scope, listed⟩ := Overrides.lists_of_find? lookup
    apply overridden
    exact ((SmellOverride.fault?_eq_none_iff smell o).1 (valid.fault?_of_lists listed)).2

theorem Valid.one_le_calls_resolve (valid : s.Valid) (names : List Text) :
    1 ≤ (s.resolve "DuplicateMethodCall" names).maxAllowedCalls := by
  have general : 1 ≤ (s.general "DuplicateMethodCall").maxAllowedCalls :=
    Int.not_lt.1 valid.maxAllowedCalls
  apply valid.resolve_induction (p := fun o => 1 ≤ o.maxAllowedCalls) general
  intro o sound
  exact sound.one_le_calls_over general

theorem Valid.zero_le_held_resolve (valid : s.Valid) (names : List Text) :
    0 ≤ (s.resolve "TooManyInstanceVariables" names).maxInstanceVariables := by
  have general : 0 ≤ (s.general "TooManyInstanceVariables").maxInstanceVariables :=
    Int.not_lt.1 valid.maxInstanceVariables
  apply valid.resolve_induction (p := fun o => 0 ≤ o.maxInstanceVariables) general
  intro o sound
  exact sound.zero_le_held_over general

theorem Valid.patterns_resolve (valid : s.Valid) (names : List Text) :
    PatternsReadable (s.resolve "DuplicateMethodCall" names).allowCalls := by
  have general : PatternsReadable (s.general "DuplicateMethodCall").allowCalls :=
    (badPattern?_eq_none_iff _).1 valid.patterns
  apply valid.resolve_induction (p := fun o => PatternsReadable o.allowCalls) general
  intro o sound
  exact sound.patterns_over general

theorem Valid.of_reordered (valid : s.Valid) {overrides : Overrides}
    (same : ∀ scope smell o, overrides.Lists scope smell o ↔ s.overrides.Lists scope smell o) :
    ({ s with overrides := overrides } : Settings).Valid := by
  refine ⟨valid.thresholds, valid.format, valid.maxWorkers, valid.maxAllowedCalls,
    valid.maxInstanceVariables, valid.patterns, ?_⟩
  intro scope inSettings smell inScope
  apply valid.fault?_of_lists
  exact (same scope.1 smell.1 smell.2).1 ⟨scope.2, inSettings, inScope⟩

/-- In accepted settings the options of a scope are in range, whatever its names are: at least one
equal call is allowed, the limit of instance variables is not negative, and every pattern of the
allow list can be read. The limit of calls is then used as it is given, and no entry of the list is
passed over. Settings with the overrides in another order are accepted as well, or refused as
well. -/
theorem resolved_options_in_range (s : Settings) :
    (s.validate = .ok () → ∀ names : List Text,
      let calls := s.resolve "DuplicateMethodCall" names
      let held := s.resolve "TooManyInstanceVariables" names
      1 ≤ calls.maxAllowedCalls ∧ 0 ≤ held.maxInstanceVariables ∧
        (∀ entry ∈ calls.allowCalls.getD [], ∀ pattern, entry = "/" ++ pattern ++ "/" →
          ∃ r, Regex.read pattern = .ok r) ∧
        calls.callLimit = calls.maxAllowedCalls ∧
        ∀ signature, calls.allowsStrictly signature = .ok (calls.allows signature)) ∧
    ∀ overrides, s.overrides.Reordered overrides →
      (({ s with overrides := overrides } : Settings).validate = .ok () ↔ s.validate = .ok ()) := by
  constructor
  · intro accepted names calls held
    have valid := (validate_eq_ok_iff s).1 accepted
    have limit : 1 ≤ calls.maxAllowedCalls := valid.one_le_calls_resolve names
    have readable : PatternsReadable calls.allowCalls := valid.patterns_resolve names
    refine ⟨limit, valid.zero_le_held_resolve names, readable, ?_, ?_⟩
    · exact Int.max_eq_left limit
    · intro signature
      exact SmellOptions.allowsStrictly_eq_ok readable signature
  · intro overrides reordered
    rw [validate_eq_ok_iff, validate_eq_ok_iff]
    constructor
    · intro valid
      exact valid.of_reordered fun scope smell o => (reordered.lists_iff scope smell o).symm
    · intro valid
      exact valid.of_reordered reordered.lists_iff

end Settings

/-- A class with overrides for two smells, and a method of it with one. -/
def tillSettings : Settings :=
  { smells := { ({} : Settings).smells with
      duplicateMethodCall :=
        { enabled := true, maxAllowedCalls := 2, allowCalls := some ["puts", "/^log/"] } }
    overrides :=
      [("Till", [("DuplicateMethodCall", { allowCalls := some ["/x+/", "/"] }),
          ("TooManyInstanceVariables", { maxInstanceVariables := some 0 })]),
        ("Till#close", [("DuplicateMethodCall", { maxAllowedCalls := some 3 })])] }

/-- The same overrides in another order. -/
def tillOverrides : Overrides :=
  [("Till#close", [("DuplicateMethodCall", { maxAllowedCalls := some 3 })]),
    ("Till", [("TooManyInstanceVariables", { maxInstanceVariables := some 0 }),
      ("DuplicateMethodCall", { allowCalls := some ["/x+/", "/"] })])]

/-- In the method the general patterns hold. In the rest of the class it is those of the override,
with the general limit. -/
theorem tillSettings_in_range :
    tillSettings.validate = .ok () ∧ tillSettings.overrides.Reordered tillOverrides ∧
      let inMethod := tillSettings.resolve "DuplicateMethodCall" ["Till#close", "Till"]
      let inClass := tillSettings.resolve "DuplicateMethodCall" ["Till"]
      inMethod.callLimit = 3 ∧ inClass.callLimit = 2 ∧
        (∃ r, Regex.read "^log" = .ok r) ∧ (∃ r, Regex.read "x+" = .ok r) ∧
        inClass.allowsStrictly "xx" = .ok true ∧
        ({ tillSettings with overrides := tillOverrides } : Settings).validate = .ok () := by
  have accepted : tillSettings.validate = .ok () := rfl
  have reordered : tillSettings.overrides.Reordered tillOverrides := by
    refine ⟨tillOverrides.reverse, ?_, List.reverse_perm _⟩
    exact .cons ⟨rfl, .swap ..⟩ (.cons ⟨rfl, .refl _⟩ .nil)
  obtain ⟨inRange, sameAnswer⟩ := Settings.resolved_options_in_range tillSettings
  obtain ⟨-, -, general, methodLimit, -⟩ := inRange accepted ["Till#close", "Till"]
  obtain ⟨-, -, own, classLimit, strictly⟩ := inRange accepted ["Till"]
  refine ⟨accepted, reordered, methodLimit, classLimit, ?_, ?_, strictly "xx", ?_⟩
  · exact general "/^log/" (by decide) "^log" rfl
  · exact own "/x+/" (by decide) "x+" rfl
  · exact (sameAnswer tillOverrides reordered).2 accepted

end CodeSmell
