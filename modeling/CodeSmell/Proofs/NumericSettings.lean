import CodeSmell.Proofs.SettingsStorage

/-!
# Numbers and truth values in stored settings

Settings with the texts and lists of the default settings (`Settings.HasDefaultTexts`) differ from
these in numbers and truth values only. What is not written of them is a zero, and a zero is read as
the default. Valid settings of this kind are therefore stored as they are, exactly if their limit of
instance variables is not zero (`Settings.stored_eq_self_iff`): wherever else the default is not
zero, a zero is invalid.
-/

set_option autoImplicit false

namespace CodeSmell

open Yaml

namespace Settings

variable {s : Settings}

/-- Options with an empty list or none are stored as they are, except for zeros that stand for
another default. -/
theorem storedOver_eq_self_iff {o base : SmellOptions} (lists : o.allowCalls = base.allowCalls)
    (empty : base.allowCalls.getD [] = []) :
    o.storedOver base = o ↔
      (o.maxAllowedCalls = 0 → base.maxAllowedCalls = 0) ∧
        (o.maxInstanceVariables = 0 → base.maxInstanceVariables = 0) := by
  obtain ⟨enabled, calls, list, limit⟩ := o
  dsimp only at lists
  rw [SmellOptions.storedOver, SmellOptions.mk.injEq, lists, empty]
  grind

/-- Settings as they are read back differ from the settings in their smells at most, if there are no
overrides and the list of excluded files is not missing. -/
theorem stored_eq_self_of_smells (overrides : s.overrides = []) (exclude : s.files.exclude.isSome)
    (smells : ∀ smell, (s.smells.get smell).storedOver (({} : Settings).smells.get smell)
      = s.smells.get smell) : s.stored = s := by
  have options : s.stored.smells = s.smells := by
    have each (smell : Smell) : s.stored.smells.get smell = s.smells.get smell :=
      (get_stored s smell).trans (smells smell)
    exact SmellSettings.mk.injEq .. ▸ ⟨each .duplicateMethodCall, each .featureEnvy,
      each .instanceVariableAssumption, each .tooManyInstanceVariables⟩
  have scopes : s.stored.overrides = s.overrides := by
    change s.overrides.stored = s.overrides
    rw [overrides, Overrides.stored_nil]
  have files : s.stored.files = s.files := by
    obtain ⟨patterns, given⟩ := Option.isSome_iff_exists.1 exclude
    change { s.files with exclude := some (s.files.exclude.getD []) } = s.files
    rw [given, Option.getD_some, ← given]
  calc s.stored
      = { s with smells := s.stored.smells, overrides := s.stored.overrides,
                 files := s.stored.files } := rfl
    _ = s := by rw [options, scopes, files]

/-- Valid settings with the default texts are stored as they are, exactly if their limit of instance
variables is not zero. -/
theorem stored_eq_self_iff (valid : s.Valid) (texts : s.HasDefaultTexts) :
    s.stored = s ↔ s.smells.tooManyInstanceVariables.maxInstanceVariables ≠ 0 := by
  have kept (smell : Smell) := storedOver_eq_self_iff (texts.allowCalls smell)
    (by cases smell <;> rfl)
  constructor
  · intro same zero
    have limit := ((kept .tooManyInstanceVariables).1 ?_).2 zero
    · cases limit
    · rw [← get_stored, same]
  · intro limit
    refine stored_eq_self_of_smells texts.overrides (by rw [texts.exclude]; rfl) fun smell =>
      (kept smell).2 ?_
    cases smell with
    | duplicateMethodCall =>
      refine ⟨fun zero => ?_, fun _ => rfl⟩
      exact absurd (Int.lt_of_le_of_lt (Int.le_of_eq zero) Int.zero_lt_one) valid.maxAllowedCalls
    | featureEnvy => exact ⟨fun _ => rfl, fun _ => rfl⟩
    | instanceVariableAssumption => exact ⟨fun _ => rfl, fun _ => rfl⟩
    | tooManyInstanceVariables => exact ⟨fun _ => rfl, fun zero => absurd zero limit⟩

end Settings

/-! ## Disks -/

namespace Disk

variable {d : Disk} {s : Settings} {file : String}

/-- Valid settings that differ from the default ones in numbers and truth values only, where numbers
are words of 64 bits and the limit of instance variables is not zero, are loaded as they were saved.
They can be saved unless the disk refuses all settings. -/
theorem numeric_settings_kept (valid : s.validate = .ok ()) (texts : s.HasDefaultTexts)
    (fits : ∀ n ∈ s.counts, fitsInt64 n = true)
    (limit : s.smells.tooManyInstanceVariables.maxInstanceVariables ≠ 0) :
    (∃ d', d.saveSettings s file = .ok d' ∧ d'.loadSettings file = .ok s) ∨
      ∃ e, ∀ s', d.saveSettings s' file = .error e := by
  have valid' : s.Valid := (Settings.validate_eq_ok_iff s).1 valid
  have storable : s.Storable := texts.storable fits
  have kept : codec.Keeps s.entries := Settings.codec_keeps_entries storable valid'
  rcases saveSettingsWith_cases d codec file with ⟨e, refuses⟩ | ⟨d₁, takes⟩
  · right
    exact ⟨e, refuses⟩
  · left
    obtain ⟨d', written, saved⟩ := takes s
    have loaded := loadSettingsWith_of_writeFile storable.distinct valid' kept written
    rw [(Settings.stored_eq_self_iff valid' texts).2 limit] at loaded
    exact ⟨d', saved, loaded⟩

end Disk

/-- Settings with the least and the greatest numbers there are, and zeros where these are not
written. -/
def extremeSettings : Settings :=
  { thresholds := ⟨9223372036854775807, 0, -1, -9223372036854775808⟩
    maxWorkers := 9223372036854775807
    output := { colors := false, verbose := true }
    smells :=
      { duplicateMethodCall :=
          { enabled := false, maxAllowedCalls := 2, allowCalls := some [],
            maxInstanceVariables := -9223372036854775808 }
        featureEnvy := { enabled := false, maxAllowedCalls := -1 }
        instanceVariableAssumption := {}
        tooManyInstanceVariables :=
          { enabled := true, maxInstanceVariables := 9223372036854775807 } }
    files := { maxSize := -9223372036854775808 } }

/-- The settings are loaded as they were saved in a directory that had to be made. -/
theorem extremeSettings_kept :
    extremeSettings.validate = .ok () ∧ extremeSettings.HasDefaultTexts ∧
      (∀ n ∈ extremeSettings.counts, fitsInt64 n = true) ∧
      extremeSettings.smells.tooManyInstanceVariables.maxInstanceVariables ≠ 0 ∧
      ∃ d', ({} : Disk).saveSettings extremeSettings "conf/smellcheck.yml" = .ok d' ∧
        d'.loadSettings "conf/smellcheck.yml" = .ok extremeSettings := by
  have texts : extremeSettings.HasDefaultTexts :=
    ⟨rfl, rfl, rfl, rfl, fun smell => by cases smell <;> rfl, rfl, rfl⟩
  have fits : ∀ n ∈ extremeSettings.counts, fitsInt64 n = true := by decide
  refine ⟨rfl, texts, fits, by decide, ?_⟩
  rcases @Disk.numeric_settings_kept {} extremeSettings "conf/smellcheck.yml" rfl texts fits
    (by decide) with kept | ⟨e, refused⟩
  · exact kept
  · cases refused {}

end CodeSmell
