import CodeSmell.Proofs.Encoding
import CodeSmell.Proofs.WrittenSettings
import CodeSmell.Proofs.WrittenFiles
import CodeSmell.Settings.Storage

/-!
# Saving and loading settings

Valid settings that were saved can be loaded again, and all is as it was except for two things
(`loadSettings_saveSettings`). A limit of zero instance variables is not written and becomes the
default limit, wherever no override decides. And an override with an empty list of allowed calls
loses it, so that the general list holds in its place.
-/

set_option autoImplicit false

namespace CodeSmell

open Yaml

/-! ## Stored tables -/

section Tables

variable {α β : Type} {stored : β → α} {items : List (Text × β)}

theorem perm_storedTable (distinct : (items.map Prod.fst).Nodup) :
    (storedTable stored items).entries.Perm (items.map fun item => (item.1, stored item.2)) := by
  have sorted : ((NaturalOrder.sort items).map fun item => (item.1, stored item.2)).Perm
      (items.map fun item => (item.1, stored item.2)) := (NaturalOrder.perm_sort items).map _
  refine (Fields.perm_ofList ?_).trans sorted
  rw [(sorted.map Prod.fst).nodup_iff, names_map]
  exact distinct

theorem lookup_storedTable (distinct : (items.map Prod.fst).Nodup) (name : Text) :
    (storedTable stored items).entries.lookup name = (items.lookup name).map stored := by
  rw [lookup_eq_find?, lookup_eq_find?, find?_of_perm_map (perm_storedTable distinct) distinct,
    Option.map_map, Option.map_map]
  · rfl
  · intro a b isA isB
    exact (eq_of_beq isA).symm.trans (eq_of_beq isB)

end Tables

/-- The scopes are those that were written, each with its smells as they are read back. -/
theorem Overrides.perm_stored {overrides : Overrides} (distinct : overrides.Distinct) :
    overrides.stored.Perm (overrides.map fun scope =>
      (scope.1, (storedTable SmellOverride.stored scope.2).entries)) := by
  have scopes := (@perm_storedTable _ _ (storedTable SmellOverride.stored) _ distinct.scopes).map
    fun scope => (scope.1, scope.2.entries)
  rw [List.map_map] at scopes
  exact scopes

namespace Settings

variable {s : Settings}

/-! ## Stored settings are valid -/

theorem get_stored (s : Settings) (smell : Smell) :
    s.stored.smells.get smell
      = (s.smells.get smell).storedOver (({} : Settings).smells.get smell) := by
  cases smell <;> rfl

theorem badPattern?_congr {entries entries' : Option (List Text)}
    (same : entries.getD [] = entries'.getD []) : badPattern? entries = badPattern? entries' := by
  rw [badPattern?, badPattern?, same]

/-- A list that is not written counts as an empty one. -/
theorem getD_stored {entries base : Option (List Text)} (empty : base.getD [] = []) :
    (if entries.getD [] = [] then base else entries).getD [] = entries.getD [] := by
  split
  · rw [empty, ‹entries.getD [] = []›]
  · rfl

theorem fault?_stored {smell : Text} {o : SmellOverride} :
    o.stored.fault? smell = o.fault? smell := by
  have lists : badPattern? o.stored.allowCalls = badPattern? o.allowCalls :=
    badPattern?_congr (getD_stored rfl)
  rw [SmellOverride.fault?, lists]
  rfl

/-- What is not written becomes a default, and defaults are valid. -/
theorem valid_stored (distinct : s.overrides.Distinct) (valid : s.Valid) : s.stored.Valid := by
  refine ⟨valid.thresholds, valid.format, valid.maxWorkers, ?calls, ?limit, ?patterns, ?overrides⟩
  case calls =>
    change ¬ (if s.smells.duplicateMethodCall.maxAllowedCalls = 0 then 1
      else s.smells.duplicateMethodCall.maxAllowedCalls) < (1 : Int)
    split
    · decide
    · exact valid.maxAllowedCalls
  case limit =>
    change ¬ (if s.smells.tooManyInstanceVariables.maxInstanceVariables = 0 then 4
      else s.smells.tooManyInstanceVariables.maxInstanceVariables) < (0 : Int)
    split
    · decide
    · exact valid.maxInstanceVariables
  case patterns => exact (badPattern?_congr (getD_stored rfl)).trans valid.patterns
  case overrides =>
    intro scope listed smell listed'
    obtain ⟨scope, inSettings, rfl⟩ :=
      List.mem_map.1 ((Overrides.perm_stored distinct).mem_iff.1 listed)
    have smells := distinct.smells scope inSettings
    obtain ⟨smell, inScope, rfl⟩ := List.mem_map.1 ((perm_storedTable smells).mem_iff.1 listed')
    exact fault?_stored.trans (valid.overrides scope inSettings smell inScope)

/-- What a codec that keeps the entries writes of valid settings is read as what is stored. -/
theorem read_write {y : Codec} (distinct : s.overrides.Distinct) (valid : s.Valid)
    (kept : y.Keeps s.entries) : read y (y.write s.entries) = .ok s.stored := by
  obtain ⟨document, found, denotes⟩ := kept
  have fine : s.stored.validate = .ok () :=
    (validate_eq_ok_iff _).2 (valid_stored distinct valid)
  rw [read, found]
  simp only [Except.mapError, bind, Except.bind]
  rw [ofDocument_of_denotes distinct denotes]
  dsimp only
  rw [fine]

/-! ## Options of scopes -/

/-- The override that decides about a smell for a scope with given names, innermost first. -/
def deciding (s : Settings) (smell : Text) (names : List Text) : Option SmellOverride :=
  names.findSome? (s.overrides.find? smell)

theorem find?_stored (distinct : s.overrides.Distinct) (smell name : Text) :
    s.stored.overrides.find? smell name
      = (s.overrides.find? smell name).map SmellOverride.stored := by
  -- a name belongs to one scope at most, so the order of the scopes does not matter
  have outer := find?_of_perm_map (q := fun scope => decide (scope = name))
    (g := fun smells => (storedTable SmellOverride.stored smells).entries)
    (Overrides.perm_stored distinct) distinct.scopes fun a b isA isB =>
      (of_decide_eq_true isA).trans (of_decide_eq_true isB).symm
  have table : s.stored.overrides = s.overrides.stored := rfl
  rw [Overrides.find?, Overrides.find?, table, outer]
  cases found : List.find? (fun scope => decide (scope.1 = name)) s.overrides with
  | none => rfl
  | some scope =>
    exact lookup_storedTable (distinct.smells scope (List.mem_of_find?_eq_some found)) smell

theorem deciding_stored (distinct : s.overrides.Distinct) (smell : Text) (names : List Text) :
    s.stored.deciding smell names = (s.deciding smell names).map SmellOverride.stored := by
  rw [deciding, deciding, List.map_findSome?]
  congr 1
  funext name
  exact find?_stored distinct smell name

end Settings

/-- Options that agree, where a missing list agrees with an empty one. -/
structure SmellOptions.Agree (o o' : SmellOptions) : Prop where
  enabled : o.enabled = o'.enabled
  maxAllowedCalls : o.maxAllowedCalls = o'.maxAllowedCalls
  allowCalls : o.allowCalls.getD [] = o'.allowCalls.getD []
  maxInstanceVariables : o.maxInstanceVariables = o'.maxInstanceVariables

namespace Settings

variable {s : Settings}

/-- The general limit of instance variables holds and is zero. -/
def LosesLimit (s : Settings) (smell : Text) (names : List Text) : Prop :=
  smell = Smell.tooManyInstanceVariables.name ∧
    s.smells.tooManyInstanceVariables.maxInstanceVariables = 0 ∧
    (s.deciding smell names).bind (·.maxInstanceVariables) = none

/-- An override allows no calls, although the general options allow some. -/
def LosesList (s : Settings) (smell : Text) (names : List Text) : Prop :=
  (s.deciding smell names).bind (·.allowCalls) = some [] ∧ (s.general smell).allowCalls.getD [] ≠ []

theorem ite_zero (m : Int) : (if m = 0 then 0 else m) = m := by
  split
  · exact ‹m = 0›.symm
  · rfl

/-- The options of a smell are kept, except for a limit of zero where the default is not zero. -/
theorem storedOver_default (valid : s.Valid) (smell : Smell) :
    (s.stored.smells.get smell).enabled = (s.smells.get smell).enabled ∧
      (s.stored.smells.get smell).maxAllowedCalls = (s.smells.get smell).maxAllowedCalls ∧
      (s.stored.smells.get smell).allowCalls.getD [] = (s.smells.get smell).allowCalls.getD [] ∧
      ((s.stored.smells.get smell).maxInstanceVariables
          = (s.smells.get smell).maxInstanceVariables ↔
        ¬ (smell = .tooManyInstanceVariables ∧
          s.smells.tooManyInstanceVariables.maxInstanceVariables = 0)) := by
  rw [get_stored]
  cases smell with
  | duplicateMethodCall =>
    have some : s.smells.duplicateMethodCall.maxAllowedCalls ≠ 0 := by
      have least := valid.maxAllowedCalls
      omega
    exact ⟨rfl, if_neg some, getD_stored rfl, iff_of_true (ite_zero _) fun lost => nomatch lost.1⟩
  | featureEnvy | instanceVariableAssumption =>
    exact ⟨rfl, ite_zero _, getD_stored rfl, iff_of_true (ite_zero _) fun lost => nomatch lost.1⟩
  | tooManyInstanceVariables =>
    refine ⟨rfl, ite_zero _, getD_stored rfl, ?_⟩
    change (if s.smells.tooManyInstanceVariables.maxInstanceVariables = 0 then 4
      else s.smells.tooManyInstanceVariables.maxInstanceVariables)
        = s.smells.tooManyInstanceVariables.maxInstanceVariables ↔ _
    by_cases zero : s.smells.tooManyInstanceVariables.maxInstanceVariables = 0
    · rw [zero]
      decide
    · exact iff_of_true (if_neg zero) fun lost => zero lost.2

theorem general_stored (valid : s.Valid) (smell : Text) :
    (s.stored.general smell).enabled = (s.general smell).enabled ∧
      (s.stored.general smell).maxAllowedCalls = (s.general smell).maxAllowedCalls ∧
      (s.stored.general smell).allowCalls.getD [] = (s.general smell).allowCalls.getD [] ∧
      ((s.stored.general smell).maxInstanceVariables = (s.general smell).maxInstanceVariables ↔
        ¬ (smell = Smell.tooManyInstanceVariables.name ∧
          s.smells.tooManyInstanceVariables.maxInstanceVariables = 0)) := by
  rw [general, general]
  cases named : Smell.ofName? smell with
  | none =>
    have other : smell ≠ Smell.tooManyInstanceVariables.name := by
      rintro rfl
      cases named
    exact ⟨rfl, rfl, rfl, iff_of_true rfl fun lost => other lost.1⟩
  | some known =>
    have same := Smell.name_of_ofName? named
    have whole := storedOver_default valid known
    have names : known = .tooManyInstanceVariables ↔
        smell = Smell.tooManyInstanceVariables.name := by
      rw [← same]
      cases known <;> decide
    rw [names] at whole
    exact whole

/-- What an override leaves open comes from the general options, and so does an empty list that was
not written. -/
theorem over_stored_agree_iff {o : SmellOverride} {base base' : SmellOptions}
    (enabled : base'.enabled = base.enabled)
    (calls : base'.maxAllowedCalls = base.maxAllowedCalls)
    (lists : base'.allowCalls.getD [] = base.allowCalls.getD []) :
    (o.stored.over base').Agree (o.over base) ↔
      (o.maxInstanceVariables = none → base'.maxInstanceVariables = base.maxInstanceVariables) ∧
        (o.allowCalls = some [] → base.allowCalls.getD [] = []) := by
  constructor
  · intro agree
    constructor
    · intro unset
      have limit := agree.maxInstanceVariables
      simp only [SmellOverride.over, SmellOverride.stored, unset, Option.getD_none] at limit
      exact limit
    · intro empty
      have list := agree.allowCalls
      simp only [SmellOverride.over, SmellOverride.stored, empty, Option.getD_some, if_pos,
        Option.none_or, Option.some_or] at list
      exact lists.symm.trans list
  · rintro ⟨limit, list⟩
    refine ⟨congrArg o.enabled.getD enabled, congrArg o.maxAllowedCalls.getD calls, ?_, ?_⟩
    · simp only [SmellOverride.over, SmellOverride.stored]
      match given : o.allowCalls with
      | none => exact lists
      | some [] => exact lists.trans (list given)
      | some (entry :: entries) => rfl
    · simp only [SmellOverride.over, SmellOverride.stored]
      cases given : o.maxInstanceVariables with
      | none => exact limit given
      | some m => rfl

/-- The options of a scope are kept exactly if neither a limit nor a list is lost. -/
theorem resolve_stored (distinct : s.overrides.Distinct) (valid : s.Valid) (smell : Text)
    (names : List Text) : (s.stored.resolve smell names).Agree (s.resolve smell names) ↔
      ¬ s.LosesLimit smell names ∧ ¬ s.LosesList smell names := by
  obtain ⟨enabled, calls, lists, limit⟩ := general_stored valid smell
  have decided := deciding_stored distinct smell names
  have resolved (s : Settings) : s.resolve smell names
      = (s.deciding smell names).elim (s.general smell) fun o => o.over (s.general smell) := by
    rw [resolve, ← deciding]
    cases s.deciding smell names <;> rfl
  rw [resolved, resolved, decided, LosesLimit, LosesList]
  cases s.deciding smell names with
  | none =>
    constructor
    · intro agree
      refine ⟨fun lost => ?_, by rintro ⟨⟨⟩, _⟩⟩
      exact limit.1 agree.maxInstanceVariables ⟨lost.1, lost.2.1⟩
    · rintro ⟨kept, -⟩
      exact ⟨enabled, calls, lists, limit.2 fun lost => kept ⟨lost.1, lost.2, rfl⟩⟩
  | some o =>
    change (o.stored.over _).Agree (o.over _) ↔ _
    rw [over_stored_agree_iff enabled calls lists, limit]
    constructor
    · rintro ⟨kept, list⟩
      exact ⟨fun lost => kept lost.2.2 ⟨lost.1, lost.2.1⟩, fun lost => lost.2 (list lost.1)⟩
    · rintro ⟨kept, list⟩
      refine ⟨fun unset lost => kept ⟨lost.1, lost.2, unset⟩, fun empty => ?_⟩
      exact not_not.1 fun some => list ⟨empty, some⟩

end Settings

/-! ## Disks -/

namespace Disk

variable {d : Disk} {s : Settings} {file : String} {y : Codec}

/-- Settings that were written are loaded as what is stored. -/
theorem loadSettingsWith_of_writeFile {d' : Disk} (distinct : s.overrides.Distinct)
    (valid : s.Valid) (kept : y.Keeps s.entries)
    (written : d.writeFile file (y.write s.entries) = .ok d') :
    d'.loadSettingsWith y file = .ok s.stored := by
  have named : file ≠ "" := (writeFile_eq_ok written).1
  rw [loadSettingsWith, settingsFile?, if_pos named]
  dsimp only
  rw [read_writeFile written]
  simp only [Except.mapError, bind, Except.bind]
  rw [Settings.read_write distinct valid kept]

/-- A disk refuses all settings for a file, or it takes all of them. -/
theorem saveSettingsWith_cases (d : Disk) (y : Codec) (file : String) :
    (∃ e, ∀ s, d.saveSettingsWith y s file = .error e) ∨
      ∃ d₁ : Disk, ∀ s : Settings, ∃ d', d₁.writeFile file (y.write s.entries) = .ok d' ∧
        d.saveSettingsWith y s file = .ok d' := by
  unfold saveSettingsWith
  cases d.makeDirectories (Path.parent file) with
  | error fault => exact .inl ⟨_, fun _ => rfl⟩
  | ok d₁ =>
    -- the directory is made, and what is left is to write the file
    simp only [Except.mapError, bind, Except.bind]
    rcases writeFile_cases d₁ file with ⟨e, refuses⟩ | takes
    · left
      refine ⟨.file e, fun s => ?_⟩
      rw [refuses]
    · right
      refine ⟨d₁, fun s => ?_⟩
      obtain ⟨d', written⟩ := takes (y.write s.entries)
      refine ⟨d', written, ?_⟩
      rw [written]

/-- Wherever the default settings can be saved, others can be saved and loaded. -/
theorem exists_saveSettingsWith (distinct : s.overrides.Distinct) (valid : s.Valid)
    (kept : y.Keeps s.entries) (writable : ∃ d₀, d.saveSettingsWith y {} file = .ok d₀) :
    ∃ d', d.saveSettingsWith y s file = .ok d' ∧ d'.loadSettingsWith y file = .ok s.stored := by
  obtain ⟨d₀, saved⟩ := writable
  rcases saveSettingsWith_cases d y file with ⟨e, refuses⟩ | ⟨d₁, takes⟩
  · rw [refuses] at saved
    cases saved
  · obtain ⟨d', written, saved'⟩ := takes s
    exact ⟨d', saved', loadSettingsWith_of_writeFile distinct valid kept written⟩

/-- Valid settings, whose overrides name no scope or smell twice and whose entries the codec keeps,
are saved wherever a file can be written, and are loaded with the same names, thresholds, workers,
reports and files. The options of a scope are the same as well, exactly if neither a limit of zero
nor an empty list of an override is lost. -/
theorem loadSettings_saveSettings (valid : s.validate = .ok ()) (distinct : s.overrides.Distinct)
    (kept : y.Keeps s.entries) (writable : ∃ d₀, d.saveSettingsWith y {} file = .ok d₀) :
    ∃ d' loaded, d.saveSettingsWith y s file = .ok d' ∧ d'.loadSettingsWith y file = .ok loaded ∧
      loaded.version = s.version ∧ loaded.projectName = s.projectName ∧
      loaded.thresholds = s.thresholds ∧ loaded.maxWorkers = s.maxWorkers ∧
      loaded.output = s.output ∧ loaded.files.maxSize = s.files.maxSize ∧
      loaded.files.exclude.getD [] = s.files.exclude.getD [] ∧
      ∀ smell names, (loaded.resolve smell names).Agree (s.resolve smell names) ↔
        ¬ s.LosesLimit smell names ∧ ¬ s.LosesList smell names := by
  have valid' : s.Valid := (Settings.validate_eq_ok_iff s).1 valid
  obtain ⟨d', saved, loaded⟩ := exists_saveSettingsWith distinct valid' kept writable
  exact ⟨d', s.stored, saved, loaded, rfl, rfl, rfl, rfl, rfl, rfl, rfl,
    Settings.resolve_stored distinct valid'⟩

end Disk

/-- Settings that allow no instance variables. -/
def strictSettings : Settings :=
  { smells := { ({} : Settings).smells with
      tooManyInstanceVariables := { enabled := true, maxInstanceVariables := 0 } } }

/-- An override that allows some in one scope. -/
def parserOverrides : Overrides :=
  [("Parser", [("TooManyInstanceVariables", { maxInstanceVariables := some 2 })])]

theorem storable_strictSettings : strictSettings.Storable := by
  refine Settings.HasDefaultTexts.storable ⟨rfl, rfl, rfl, rfl, ?_, rfl, rfl⟩ (by decide)
  intro smell
  cases smell <;> rfl

theorem storable_parserOverrides :
    Settings.Storable { strictSettings with overrides := parserOverrides } := by
  refine { storable_strictSettings with distinct := ⟨by decide, ?_⟩, scopes := ?_, overrides := ?_ }
  · intro scope mem
    obtain rfl := List.mem_singleton.1 mem
    decide
  · intro scope mem
    obtain rfl := List.mem_singleton.1 mem
    exact ⟨"Parser", rfl, by decide, fun long => (nomatch long)⟩
  · intro scope mem
    obtain rfl := List.mem_singleton.1 mem
    intro smell mem
    obtain rfl := List.mem_singleton.1 mem
    refine ⟨fun _ mem => (nomatch mem), fun _ mem => (nomatch mem), ?_⟩
    intro m mem
    obtain rfl := Option.some.inj mem
    decide

/-- The limit comes back where an override sets it, and is lost elsewhere. -/
theorem parserOverrides_after_loading :
    ∃ d' loaded, ({} : Disk).saveSettings { strictSettings with overrides := parserOverrides }
        "conf/smellcheck.yml" = .ok d' ∧
      d'.loadSettings "conf/smellcheck.yml" = .ok loaded ∧
      (loaded.resolve "TooManyInstanceVariables" ["Parser"]).maxInstanceVariables = 2 ∧
      ¬ (loaded.resolve "TooManyInstanceVariables" []).Agree
        (strictSettings.resolve "TooManyInstanceVariables" []) := by
  have kept := Settings.codec_keeps_entries storable_parserOverrides
    ((Settings.validate_eq_ok_iff _).1 rfl)
  obtain ⟨d', loaded, saved, again, -, -, -, -, -, -, -, options⟩ :=
    @Disk.loadSettings_saveSettings {} { strictSettings with overrides := parserOverrides }
      "conf/smellcheck.yml" codec rfl storable_parserOverrides.distinct kept ⟨_, rfl⟩
  refine ⟨d', loaded, saved, again, ?_, ?_⟩
  · have agree := (options "TooManyInstanceVariables" ["Parser"]).2 ⟨?_, ?_⟩
    · exact agree.maxInstanceVariables
    · rintro ⟨-, -, unset⟩
      cases unset
    · rintro ⟨empty, -⟩
      cases empty
  · intro agree
    exact ((options "TooManyInstanceVariables" []).1 agree).1 ⟨rfl, rfl, rfl⟩

/-- A limit of zero is valid, and the default limit is loaded in its place. -/
theorem zero_limit_loaded_as_four : strictSettings.validate = .ok () ∧
    ∃ d' loaded, ({} : Disk).saveSettings strictSettings "smellcheck.yml" = .ok d' ∧
      d'.loadSettings "smellcheck.yml" = .ok loaded ∧
      (strictSettings.resolve "TooManyInstanceVariables" []).maxInstanceVariables = 0 ∧
      (loaded.resolve "TooManyInstanceVariables" []).maxInstanceVariables = 4 := by
  have valid : strictSettings.Valid := (Settings.validate_eq_ok_iff _).1 rfl
  obtain ⟨d', saved, loaded⟩ := @Disk.exists_saveSettingsWith {} strictSettings "smellcheck.yml"
    codec storable_strictSettings.distinct valid
    (Settings.codec_keeps_entries storable_strictSettings valid) ⟨_, rfl⟩
  exact ⟨rfl, d', strictSettings.stored, saved, loaded, rfl, rfl⟩

end CodeSmell
