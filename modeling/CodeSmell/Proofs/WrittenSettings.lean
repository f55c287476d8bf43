import CodeSmell.Proofs.StoredSettings
import CodeSmell.Proofs.Yaml.Codec

/-!
# Settings in a written document

The entries of settings are kept by the writer if numbers are words of 64 bits, texts are kept, and
names of overrides differ (`Settings.Storable`, `Settings.codec_keeps_entries`). Settings with the
texts and lists of the default settings are of this kind (`Settings.HasDefaultTexts.storable`).
-/

set_option autoImplicit false

namespace CodeSmell

open Yaml

/-! ## What can be stored -/

/-- Options of a smell that can be stored. -/
structure SmellOptions.Storable (o : SmellOptions) : Prop where
  maxAllowedCalls : fitsInt64 o.maxAllowedCalls = true
  allowCalls : ∀ entry ∈ o.allowCalls.getD [], KeptText true entry
  maxInstanceVariables : fitsInt64 o.maxInstanceVariables = true

/-- An override that can be stored. -/
structure SmellOverride.Storable (o : SmellOverride) : Prop where
  maxAllowedCalls : ∀ n ∈ o.maxAllowedCalls, fitsInt64 n = true
  allowCalls : ∀ entry ∈ o.allowCalls.getD [], KeptText true entry
  maxInstanceVariables : ∀ n ∈ o.maxInstanceVariables, fitsInt64 n = true

/-- Settings that can be stored: numbers are words of 64 bits, texts and names of scopes are kept,
and names differ. -/
structure Settings.Storable (s : Settings) : Prop where
  counts : ∀ n ∈ [s.thresholds.excellent, s.thresholds.good, s.thresholds.fair, s.thresholds.poor,
    s.maxWorkers, s.files.maxSize], fitsInt64 n = true
  texts : ∀ text ∈ [s.version, s.projectName, s.output.file], KeptText false text
  options : ∀ smell, (s.smells.get smell).Storable
  distinct : s.overrides.Distinct
  scopes : ∀ scope ∈ s.overrides, KeptName scope.1
  overrides : ∀ scope ∈ s.overrides, ∀ smell ∈ scope.2, smell.2.Storable
  exclude : ∀ entry ∈ s.files.exclude.getD [], KeptText true entry

theorem keptText_of_flat {inList : Bool} {s : String} (flat : '\n' ∉ s.toList) :
    KeptText inList s :=
  ⟨s, rfl, fun broken => absurd broken flat⟩

namespace Settings

variable {σ : Type} {rules : List (KeyRule σ)} {fields : List (Text × Value)} {n : Nat}
  {name : String}

/-! ## Entries -/

/-- A table of some of the keys that are known. -/
theorem keeps_table (known : (rules.map KeyRule.name).Nodup)
    (simple : (rules.map KeyRule.name).all (fun name => isSimpleKey name && name != "<<") = true)
    (names : (fields.map Prod.fst).Sublist (keyNames rules))
    (values : ∀ field ∈ fields, field.2.Keeps n) : (Value.table fields).Keeps (n + 1) := by
  refine .table ((nodup_keyNames known).sublist names) (fun field mem => ?_) values
  obtain ⟨rule, listed, same⟩ := List.mem_map.1 (names.subset (List.mem_map_of_mem mem))
  have fine := List.all_eq_true.1 simple rule.name (List.mem_map_of_mem listed)
  obtain ⟨short, own⟩ := Bool.and_eq_true_iff.1 fine
  refine ⟨rule.name, same.symm, bne_iff_ne.1 own, fun long => ?_⟩
  rw [short] at long
  cases long

theorem keeps_field {v : Value} (keeps : v.Keeps n) : ∀ f ∈ field name v, f.2.Keeps n :=
  List.forall_mem_singleton.2 keeps

theorem keeps_textField {t : Text} (kept : KeptText false t) :
    ∀ f ∈ textField name t, f.2.Keeps n := by
  unfold textField
  split
  · exact fun _ mem => nomatch mem
  · exact keeps_field (.text kept)

theorem keeps_countField {m : Int} (fits : fitsInt64 m = true) :
    ∀ f ∈ countField name m, f.2.Keeps n := by
  unfold countField
  split
  · exact fun _ mem => nomatch mem
  · exact keeps_field (.int fits)

theorem keeps_listField {items : Option (List Text)}
    (kept : ∀ t ∈ items.getD [], KeptText true t) :
    ∀ f ∈ listField name items, f.2.Keeps (n + 1) := by
  unfold listField
  split
  · exact keeps_field (.list kept)
  · exact fun _ mem => nomatch mem

theorem keeps_optionalField {α : Type} {write : α → Value} {value : Option α}
    (keeps : ∀ a ∈ value, (write a).Keeps n) :
    ∀ f ∈ optionalField name write value, f.2.Keeps n := by
  cases value with
  | some a => exact keeps_field (keeps a rfl)
  | none => exact fun _ mem => nomatch mem

theorem keeps_append {more : List (Text × Value)} (first : ∀ f ∈ fields, f.2.Keeps n)
    (second : ∀ f ∈ more, f.2.Keeps n) : ∀ f ∈ fields ++ more, f.2.Keeps n :=
  List.forall_mem_append.2 ⟨first, second⟩

/-! ## Parts -/

theorem keeps_options {o : SmellOptions} (storable : o.Storable) :
    (Value.table (optionFields o)).Keeps (n + 2) := by
  refine keeps_table (by decide) (by decide) (names_optionFields o) ?_
  refine keeps_append (keeps_append (keeps_append ?_ ?_) ?_) ?_
  · exact keeps_field (.bool o.enabled)
  · exact keeps_countField storable.maxAllowedCalls
  · exact keeps_listField storable.allowCalls
  · exact keeps_countField storable.maxInstanceVariables

theorem keeps_override {o : SmellOverride} (storable : o.Storable) :
    (Value.table (overrideFields o)).Keeps (n + 2) := by
  refine keeps_table (by decide) (by decide) (names_overrideFields o) ?_
  refine keeps_append (keeps_append (keeps_append ?_ ?_) ?_) ?_
  · exact keeps_optionalField fun b _ => .bool b
  · exact keeps_optionalField fun m mem => .int (storable.maxAllowedCalls m mem)
  · exact keeps_listField storable.allowCalls
  · exact keeps_optionalField fun m mem => .int (storable.maxInstanceVariables m mem)

theorem keeps_smells {o : SmellSettings} (storable : ∀ smell, (o.get smell).Storable) :
    (Value.table (smellFields o)).Keeps (n + 3) := by
  refine @keeps_table _ smellKeys _ _ (by decide) (by decide) (.refl _) ?_
  intro f mem
  obtain ⟨smell, -, inField⟩ := List.mem_flatMap.1 mem
  exact keeps_field (keeps_options (storable smell)) f inField

/-- A table of values by name, in whatever order. -/
theorem keeps_sorted {β : Type} (write : β → Value) {items : List (Text × β)}
    (distinct : (items.map Prod.fst).Nodup) (names : ∀ item ∈ items, KeptName item.1)
    (values : ∀ item ∈ items, (write item.2).Keeps n) :
    (Value.table ((NaturalOrder.sort items).map fun item => (item.1, write item.2))).Keeps
      (n + 1) := by
  have perm := NaturalOrder.perm_sort items
  refine .table ?_ ?_ ?_
  · rw [names_map write, (perm.map Prod.fst).nodup_iff]
    exact distinct
  · intro field mem
    obtain ⟨item, listed, rfl⟩ := List.mem_map.1 mem
    exact names item (perm.mem_iff.1 listed)
  · intro field mem
    obtain ⟨item, listed, rfl⟩ := List.mem_map.1 mem
    exact values item (perm.mem_iff.1 listed)

/-- The smells of overrides that are valid are known, and their names are short. -/
theorem keptName_of_fault? {smell : Text} {o : SmellOverride} (valid : o.fault? smell = none) :
    KeptName smell := by
  have short : ∀ known : Smell, known.name ≠ "<<" ∧ isSimpleKey known.name = true := by
    intro known
    cases known <;> decide
  rw [SmellOverride.fault?, check_eq_none_iff] at valid
  cases named : Smell.ofName? smell with
  | none => simp [named] at valid
  | some known =>
    refine ⟨known.name, (Smell.name_of_ofName? named).symm, (short known).1, fun long => ?_⟩
    rw [(short known).2] at long
    cases long

theorem keeps_overridesField {s : Settings} (storable : s.Storable) (valid : s.Valid) :
    ∀ f ∈ overridesField s.overrides, f.2.Keeps (n + 4) := by
  unfold overridesField
  split
  · exact fun _ mem => nomatch mem
  · refine keeps_field (keeps_sorted (fun smells => .table (scopeFields smells))
      storable.distinct.scopes storable.scopes fun scope listed => ?_)
    refine keeps_sorted (fun o => .table (overrideFields o))
      (storable.distinct.smells scope listed) (fun smell listed' => ?_) fun smell listed' => ?_
    · exact keptName_of_fault? (valid.overrides scope listed smell listed')
    · exact keeps_override (storable.overrides scope listed smell listed')

theorem keeps_thresholds {t : Thresholds} (fits : ∀ m ∈ [t.excellent, t.good, t.fair, t.poor],
    fitsInt64 m = true) : (Value.table (thresholdFields t)).Keeps (n + 1) := by
  simp only [List.forall_mem_cons] at fits
  obtain ⟨excellent, good, fair, poor, -⟩ := fits
  refine @keeps_table _ thresholdKeys _ _ (by decide) (by decide) (.refl _) ?_
  exact keeps_append (keeps_append (keeps_append (keeps_field (.int excellent))
    (keeps_field (.int good))) (keeps_field (.int fair))) (keeps_field (.int poor))

theorem keeps_analysis {s : Settings} (storable : s.Storable) :
    (Value.table (analysisFields s)).Keeps (n + 2) := by
  have fits := storable.counts
  refine @keeps_table _ analysisKeys _ _ (by decide) (by decide) (.refl _) ?_
  refine keeps_append (keeps_field (keeps_thresholds fun m mem => ?_))
    (keeps_field (.int (fits _ (by simp))))
  exact fits m (List.mem_append_left [s.maxWorkers, s.files.maxSize] mem)

/-- Formats are words. -/
theorem keptText_format {s : Settings} (valid : s.Valid) : KeptText false s.output.format := by
  rcases List.mem_pair.1 valid.format with console | json
  · rw [console]
    exact keptText_of_flat (by decide)
  · rw [json]
    exact keptText_of_flat (by decide)

theorem keeps_output {o : OutputSettings} (format : KeptText false o.format)
    (file : KeptText false o.file) : (Value.table (outputFields o)).Keeps (n + 1) := by
  refine keeps_table (by decide) (by decide) (names_outputFields o) ?_
  exact keeps_append (keeps_append (keeps_append (keeps_field (.text format))
    (keeps_field (.bool o.colors))) (keeps_field (.bool o.verbose))) (keeps_textField file)

theorem keeps_files {f : FileSettings} (kept : ∀ entry ∈ f.exclude.getD [], KeptText true entry)
    (fits : fitsInt64 f.maxSize = true) : (Value.table (fileFields f)).Keeps (n + 2) := by
  refine @keeps_table _ fileKeys _ _ (by decide) (by decide) (.refl _) ?_
  exact keeps_append (keeps_field (.list kept)) (keeps_field (.int fits))

/-! ## Settings -/

theorem keeps_entries {s : Settings} (storable : s.Storable) (valid : s.Valid) :
    (Value.table s.entries).Keeps 5 := by
  have texts := storable.texts
  simp only [List.forall_mem_cons] at texts
  obtain ⟨version, projectName, file, -⟩ := texts
  have maxSize := storable.counts s.files.maxSize (by simp)
  refine keeps_table (by decide) (by decide) (names_entries s) ?_
  refine keeps_append (keeps_append (keeps_append (keeps_append (keeps_append (keeps_append
    ?version ?projectName) ?analysis) ?output) ?smells) ?overrides) ?files
  case version => exact keeps_field (.text version)
  case projectName => exact keeps_textField projectName
  case analysis => exact keeps_field (keeps_analysis storable)
  case output => exact keeps_field (keeps_output (keptText_format valid) file)
  case smells => exact keeps_field (keeps_smells storable.options)
  case overrides => exact keeps_overridesField storable valid
  case files => exact keeps_field (keeps_files storable.exclude maxSize)

/-- Valid settings that can be stored are kept. -/
theorem codec_keeps_entries {s : Settings} (storable : s.Storable) (valid : s.Valid) :
    codec.Keeps s.entries :=
  codec_keeps (List.cons_ne_nil _ _) (keeps_entries storable valid) (by decide)

/-! ## Settings with the default texts -/

/-- All that is neither a number nor a truth value is as in the default settings. -/
structure HasDefaultTexts (s : Settings) : Prop where
  version : s.version = ({} : Settings).version
  projectName : s.projectName = ({} : Settings).projectName
  format : s.output.format = ({} : Settings).output.format
  file : s.output.file = ({} : Settings).output.file
  allowCalls : ∀ smell,
    (s.smells.get smell).allowCalls = (({} : Settings).smells.get smell).allowCalls
  overrides : s.overrides = ({} : Settings).overrides
  exclude : s.files.exclude = ({} : Settings).files.exclude

/-- The numbers of settings. -/
def counts (s : Settings) : List Int :=
  [s.thresholds.excellent, s.thresholds.good, s.thresholds.fair, s.thresholds.poor, s.maxWorkers,
    s.files.maxSize] ++ Smell.all.flatMap fun smell =>
      [(s.smells.get smell).maxAllowedCalls, (s.smells.get smell).maxInstanceVariables]

theorem mem_counts_of_smell (s : Settings) (smell : Smell) :
    (s.smells.get smell).maxAllowedCalls ∈ s.counts ∧
      (s.smells.get smell).maxInstanceVariables ∈ s.counts := by
  have listed : smell ∈ Smell.all := by cases smell <;> decide
  constructor
  · exact List.mem_append_right _ (List.mem_flatMap.2 ⟨smell, listed, by simp⟩)
  · exact List.mem_append_right _ (List.mem_flatMap.2 ⟨smell, listed, by simp⟩)

/-- The default texts stand on one line each. -/
theorem HasDefaultTexts.storable {s : Settings} (texts : s.HasDefaultTexts)
    (fits : ∀ n ∈ s.counts, fitsInt64 n = true) : s.Storable := by
  refine ⟨?counts, ?texts, ?options, ?distinct, ?scopes, ?overrides, ?exclude⟩
  case counts =>
    intro n mem
    exact fits n (List.mem_append_left _ mem)
  case texts =>
    rw [texts.version, texts.projectName, texts.file]
    simp only [List.forall_mem_cons]
    exact ⟨keptText_of_flat (s := "1.0") (by decide), keptText_of_flat (s := "") (by decide),
      keptText_of_flat (s := "") (by decide), fun _ mem => nomatch mem⟩
  case options =>
    intro smell
    obtain ⟨calls, limit⟩ := s.mem_counts_of_smell smell
    refine ⟨fits _ calls, ?_, fits _ limit⟩
    rw [texts.allowCalls]
    cases smell <;> exact fun _ mem => nomatch mem
  case distinct =>
    rw [texts.overrides]
    exact ⟨List.nodup_nil, fun _ mem => nomatch mem⟩
  case scopes =>
    rw [texts.overrides]
    exact fun _ mem => nomatch mem
  case overrides =>
    rw [texts.overrides]
    exact fun _ mem => nomatch mem
  case exclude =>
    have noBreak : ∀ pattern ∈ ["vendor/**", ".git/**", "node_modules/**"],
        '\n' ∉ pattern.toList := by decide
    rw [texts.exclude]
    intro entry mem
    obtain ⟨pattern, listed, rfl⟩ := List.mem_map.1
      (show entry ∈ ["vendor/**", ".git/**", "node_modules/**"].map Text.ofString from mem)
    exact keptText_of_flat (noBreak pattern listed)

end Settings

end CodeSmell
