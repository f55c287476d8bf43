import CodeSmell.Proofs.Yaml.Decoding
import CodeSmell.Settings.Reading
import CodeSmell.Settings.Writing

/-!
# Settings read from what was written

Written settings leave out what is zero or empty, and what is left out is read as the default
(`Settings.stored`). A document that denotes the entries of settings is read part by part: each
table consists of some of the keys that are known there, in their order, and each entry sets one
part (`Settings.ofDocument_of_denotes`). Only the names of overrides have to differ
(`Overrides.Distinct`).
-/

set_option autoImplicit false

namespace CodeSmell

open Yaml

theorem Smell.name_of_ofName? {name : Text} {smell : Smell} (named : ofName? name = some smell) :
    Text.ofString smell.name = name := by
  rw [ofName?] at named
  have same := List.find?_some named
  exact of_decide_eq_true same

theorem NaturalOrder.perm_sort {α : Type} (items : List (Text × α)) : (sort items).Perm items :=
  List.mergeSort_perm _ _

/-! ## What is stored -/

/-- Options of a smell as they are read over others: zeros and empty lists are not written. -/
def SmellOptions.storedOver (o base : SmellOptions) : SmellOptions :=
  { enabled := o.enabled
    maxAllowedCalls := if o.maxAllowedCalls = 0 then base.maxAllowedCalls else o.maxAllowedCalls
    allowCalls := if o.allowCalls.getD [] = [] then base.allowCalls else o.allowCalls
    maxInstanceVariables :=
      if o.maxInstanceVariables = 0 then base.maxInstanceVariables else o.maxInstanceVariables }

/-- An override as it is read back: an empty list is not written. -/
def SmellOverride.stored (o : SmellOverride) : SmellOverride :=
  { o with allowCalls := if o.allowCalls.getD [] = [] then none else o.allowCalls }

/-- A table as it is read back. -/
def storedTable {α β : Type} (stored : β → α) (items : List (Text × β)) : Fields Text α :=
  .ofList ((NaturalOrder.sort items).map fun item => (item.1, stored item.2))

namespace Overrides

/-- Overrides as they are read back. -/
def stored (overrides : Overrides) : Overrides :=
  (storedTable (storedTable SmellOverride.stored) overrides).entries.map fun scope =>
    (scope.1, scope.2.entries)

theorem stored_nil : stored [] = [] := by
  rw [stored, storedTable, NaturalOrder.sort, List.mergeSort_nil]
  rfl

/-- No scope occurs twice, nor does a smell of one scope. -/
structure Distinct (overrides : Overrides) : Prop where
  scopes : (overrides.map Prod.fst).Nodup
  smells : ∀ scope ∈ overrides, (scope.2.map Prod.fst).Nodup

end Overrides

namespace Settings

/-- Settings as they are read back. -/
def stored (s : Settings) : Settings :=
  { s with
    smells := Smell.all.foldl (fun smells smell =>
      smells.set smell ((s.smells.get smell).storedOver (smells.get smell))) ({} : Settings).smells
    overrides := s.overrides.stored
    files := { s.files with exclude := some (s.files.exclude.getD []) } }

end Settings

/-! ## Entries -/

namespace Settings

/-- What is read as something, whatever the node that denotes it. -/
def ReadsAs {α : Type} (v : Value) (decode : Node → Decoding α) (a : α) : Prop :=
  ∀ node, node.Denotes v → Decodes (decode node) a

variable {σ : Type} {expected : String} {rules : List (KeyRule σ)} {s s' : σ}
  {fields : List (Text × Value)}

theorem readsAs_int (n : Int) : ReadsAs (.int n) Node.decodeInt (some n) := by
  rintro node ⟨⟩
  assumption

theorem readsAs_bool (b : Bool) : ReadsAs (.bool b) Node.decodeBool (some b) := by
  rintro node ⟨⟩
  assumption

theorem readsAs_text (t : Text) : ReadsAs (.text t) Node.decodeString (some t) := by
  rintro node ⟨⟩
  assumption

theorem readsAs_list (items : List Text) :
    ReadsAs (.list items) Node.decodeStrings (some items) := by
  rintro node ⟨⟩
  assumption

/-- The names of keys. -/
def keyNames (rules : List (KeyRule σ)) : List Text := rules.map fun rule => Text.ofString rule.name

theorem nodup_keyNames (distinct : (rules.map KeyRule.name).Nodup) : (keyNames rules).Nodup := by
  have names : keyNames rules = (rules.map KeyRule.name).map Text.ofString := by
    rw [List.map_map]
    rfl
  rw [names]
  exact distinct.map fun _ _ => Text.ofString_inj.1

/-- A table of some of the keys that are known, in their order. -/
theorem readsAs_table (known : (rules.map KeyRule.name).Nodup)
    (names : (fields.map Prod.fst).Sublist (keyNames rules))
    (lays : Lays (layEntry expected rules) fields s s') :
    ReadsAs (.table fields) (fun node => layKeys expected rules node s) s' := by
  intro node denotes
  exact decodes_layKeys lays ((nodup_keyNames known).sublist names) denotes

end Settings

namespace Yaml.Lays

open Settings

variable {α σ τ : Type} {step : KeyedEntry → σ → Decoding σ} {expected name name' : String}
  {rules : List (KeyRule σ)} {s s' s'' : σ} {fields : List (Text × Value)} {v : Value} {a : α}

theorem of_eq (lays : Lays step fields s s') (same : s' = s'') : Lays step fields s s'' :=
  same ▸ lays

theorem of_rule {rule : KeyRule σ} (found : rules.find? (·.name = name) = some rule)
    (reads : ReadsAs v (rule.lay · s) s') :
    Lays (layEntry expected rules) (field name v) s s' :=
  .cons (takes_rule found reads) (.nil s')

theorem scalar {decode : Node → Decoding (Option α)} {set : σ → α → σ}
    (found : rules.find? (·.name = name) = some (.ofScalar name' decode set))
    (reads : ReadsAs v decode (some a)) :
    Lays (layEntry expected rules) (field name v) s (set s a) :=
  of_rule found fun node denotes => decodes_ofScalar (reads node denotes)

theorem optional {decode : Node → Decoding (Option α)} {set : σ → Option α → σ} {a : Option α}
    (found : rules.find? (·.name = name) = some (.ofOptional name' decode set))
    (reads : ReadsAs v decode a) :
    Lays (layEntry expected rules) (field name v) s (set s a) :=
  of_rule found fun node denotes => decodes_ofOptional (reads node denotes)

theorem nested {expected' : String} {rules' : List (KeyRule τ)} {get : σ → τ} {set : σ → τ → σ}
    {t : τ} (found : rules.find? (·.name = name) = some (.nested name' expected' rules' get set))
    (reads : ReadsAs v (fun node => layKeys expected' rules' node (get s)) t) :
    Lays (layEntry expected rules) (field name v) s (set s t) :=
  of_rule found fun node denotes => decodes_nested (reads node denotes)

/-! Of the entries that may be missing, a missing one leaves the part it sets as it is. -/

theorem textField {set : σ → Text → σ} {t : Text}
    (written : Lays step (field name (.text t)) s (set s t)) (absent : set s [] = s) :
    Lays step (textField name t) s (set s t) := by
  unfold Settings.textField
  split
  · rw [‹t = []›, absent]
    exact .nil s
  · exact written

theorem countField {set : σ → Int → σ} {m old : Int}
    (written : Lays step (field name (.int m)) s (set s m)) (absent : set s old = s) :
    Lays step (countField name m) s (set s (if m = 0 then old else m)) := by
  unfold Settings.countField
  split
  · rw [absent]
    exact .nil s
  · exact written

theorem listField {set : σ → Option (List Text) → σ} {items old : Option (List Text)}
    (written : Lays step (field name (.list (items.getD []))) s (set s (some (items.getD []))))
    (absent : set s old = s) :
    Lays step (listField name items) s (set s (if items.getD [] = [] then old else items)) := by
  match items with
  | some (item :: items) => exact written
  | some [] =>
    rw [Option.getD_some, if_pos rfl, absent]
    exact .nil s
  | none =>
    rw [Option.getD_none, if_pos rfl, absent]
    exact .nil s

theorem optionalField {set : σ → Option α → σ} {write : α → Value} {value : Option α}
    (written : ∀ a ∈ value, Lays step (field name (write a)) s (set s (some a)))
    (absent : set s none = s) :
    Lays step (optionalField name write value) s (set s value) := by
  cases value with
  | some a => exact written a rfl
  | none =>
    rw [absent]
    exact .nil s

end Yaml.Lays

namespace Settings

/-! ## Names -/

section Names

variable {name : String}

theorem names_field {v : Value} : ((field name v).map Prod.fst).Sublist [↑name] := .refl _

theorem names_textField {t : Text} : ((textField name t).map Prod.fst).Sublist [↑name] := by
  unfold textField
  split <;> simp

theorem names_countField {m : Int} : ((countField name m).map Prod.fst).Sublist [↑name] := by
  unfold countField
  split <;> simp

theorem names_listField {items : Option (List Text)} :
    ((listField name items).map Prod.fst).Sublist [↑name] := by
  unfold listField
  split <;> simp

theorem names_optionalField {α : Type} {write : α → Value} {value : Option α} :
    ((optionalField name write value).map Prod.fst).Sublist [↑name] := by
  unfold optionalField
  split <;> simp

theorem names_overridesField {overrides : Overrides} :
    ((overridesField overrides).map Prod.fst).Sublist ["overrides"] := by
  unfold overridesField
  split
  · exact List.nil_sublist _
  · exact .refl _

theorem names_optionFields (o : SmellOptions) :
    ((optionFields o).map Prod.fst).Sublist (keyNames optionKeys) := by
  simp only [optionFields, List.map_append]
  exact ((names_field.append names_countField).append names_listField).append names_countField

theorem names_overrideFields (o : SmellOverride) :
    ((overrideFields o).map Prod.fst).Sublist (keyNames overrideKeys) := by
  simp only [overrideFields, List.map_append]
  exact ((names_optionalField.append names_optionalField).append names_listField).append
    names_optionalField

theorem names_outputFields (o : OutputSettings) :
    ((outputFields o).map Prod.fst).Sublist (keyNames outputKeys) := by
  simp only [outputFields, List.map_append]
  exact ((names_field.append names_field).append names_field).append names_textField

theorem names_entries (s : Settings) : (s.entries.map Prod.fst).Sublist (keyNames keys) := by
  simp only [entries, List.map_append]
  exact (((((names_field.append names_textField).append names_field).append names_field).append
    names_field).append names_overridesField).append names_field

end Names

/-! ## Reading of options -/

variable {expected : String}

theorem readsAs_options (o base : SmellOptions) :
    ReadsAs (.table (optionFields o)) (fun node => layKeys expected optionKeys node base)
      (o.storedOver base) := by
  refine readsAs_table (by decide) (names_optionFields o) ?_
  exact .of_eq (.append (.append (.append
    (.scalar rfl (readsAs_bool _))
    (.countField (.scalar rfl (readsAs_int _)) rfl))
    (.listField (.optional rfl (readsAs_list _)) rfl))
    (.countField (.scalar rfl (readsAs_int _)) rfl)) rfl

theorem readsAs_override (o : SmellOverride) :
    ReadsAs (.table (overrideFields o)) (fun node => layKeys expected overrideKeys node {})
      o.stored := by
  refine readsAs_table (by decide) (names_overrideFields o) ?_
  exact .of_eq (.append (.append (.append
    (.optionalField (fun _ _ => .optional rfl (readsAs_bool _)) rfl)
    (.optionalField (fun _ _ => .optional rfl (readsAs_int _)) rfl))
    (.listField (.optional rfl (readsAs_list _)) rfl))
    (.optionalField (fun _ _ => .optional rfl (readsAs_int _)) rfl)) rfl

theorem lays_smells (o : SmellSettings) (smells : List Smell) (base : SmellSettings) :
    Lays (layEntry expected smellKeys)
      (smells.flatMap fun smell => field smell.name (.table (optionFields (o.get smell)))) base
      (smells.foldl (fun base smell =>
        base.set smell ((o.get smell).storedOver (base.get smell))) base) := by
  induction smells generalizing base with
  | nil => exact .nil base
  | cons smell smells ih =>
    have found : smellKeys.find? (·.name = smell.name) = some (.nested smell.name
        "config.SmellConfig" optionKeys (·.get smell) (·.set smell)) := by
      cases smell <;> rfl
    rw [List.flatMap_cons]
    exact (Lays.nested found (readsAs_options _ _)).append (ih _)

theorem readsAs_smells (o base : SmellSettings) :
    ReadsAs (.table (smellFields o)) (fun node => layKeys expected smellKeys node base)
      (Smell.all.foldl (fun base smell =>
        base.set smell ((o.get smell).storedOver (base.get smell))) base) :=
  readsAs_table (by decide) (.refl _) (lays_smells o Smell.all base)

/-! ## Reading of overrides -/

/-- A table of values that are read one by one. -/
theorem readsAs_storedTable {α β : Type} {decode : Node → Decoding α} (write : β → Value)
    (stored : β → α) {items : List (Text × β)}
    (reads : ∀ item ∈ items, ReadsAs (write item.2) decode (stored item.2))
    (distinct : (items.map Prod.fst).Nodup) :
    ReadsAs (.table ((NaturalOrder.sort items).map fun item => (item.1, write item.2)))
      (decodeTable expected decode) (storedTable stored items) := by
  have perm := NaturalOrder.perm_sort items
  intro node denotes
  refine decodes_table (fun item listed => ?_) ?_ denotes
  · exact reads item (perm.mem_iff.1 listed)
  · exact ((perm.map Prod.fst).nodup_iff).2 distinct

theorem readsAs_overrides {overrides : Overrides} (distinct : overrides.Distinct) :
    ReadsAs (.table ((NaturalOrder.sort overrides).map fun scope =>
      (scope.1, .table (scopeFields scope.2)))) decodeOverrides overrides.stored := by
  intro node denotes
  refine Decodes.bind ?_ (Decodes.pure _)
  refine readsAs_storedTable (fun smells => .table (scopeFields smells))
    (storedTable SmellOverride.stored) (fun scope listed => ?_) distinct.scopes node denotes
  exact readsAs_storedTable (fun o => .table (overrideFields o)) SmellOverride.stored
    (fun smell _ => readsAs_override smell.2) (distinct.smells scope listed)

theorem lays_overrides {s base : Settings} (distinct : s.overrides.Distinct)
    (fresh : base.overrides = []) :
    Lays (layEntry expected keys) (overridesField s.overrides) base
      { base with overrides := s.overrides.stored } := by
  unfold overridesField
  split
  · have none : s.overrides = [] := List.isEmpty_iff.1 ‹_›
    -- no table is written then, and the overrides stay what they are by default
    refine (Lays.nil base).of_eq ?_
    rw [none, Overrides.stored_nil, ← fresh]
  · refine Lays.of_rule rfl fun node denotes => ?_
    exact (readsAs_overrides distinct node denotes).bind (Decodes.pure _)

/-! ## Reading of settings -/

theorem readsAs_thresholds (t base : Thresholds) :
    ReadsAs (.table (thresholdFields t)) (fun node => layKeys expected thresholdKeys node base)
      t := by
  refine readsAs_table (by decide) (.refl _) ?_
  exact .of_eq (.append (.append (.append (.scalar rfl (readsAs_int _))
    (.scalar rfl (readsAs_int _))) (.scalar rfl (readsAs_int _)))
    (.scalar rfl (readsAs_int _))) rfl

theorem readsAs_analysis (s base : Settings) :
    ReadsAs (.table (analysisFields s)) (fun node => layKeys expected analysisKeys node base)
      { base with thresholds := s.thresholds, maxWorkers := s.maxWorkers } := by
  refine readsAs_table (by decide) (.refl _) ?_
  exact .of_eq (.append (.nested rfl (readsAs_thresholds _ _)) (.scalar rfl (readsAs_int _))) rfl

theorem readsAs_output (o : OutputSettings) {base : OutputSettings} (fresh : base.file = []) :
    ReadsAs (.table (outputFields o)) (fun node => layKeys expected outputKeys node base) o := by
  refine readsAs_table (by decide) (names_outputFields o) ?_
  exact .of_eq (.append (.append (.append (.scalar rfl (readsAs_text _))
    (.scalar rfl (readsAs_bool _))) (.scalar rfl (readsAs_bool _)))
    (.textField (.scalar rfl (readsAs_text _)) (by rw [← fresh]))) rfl

theorem readsAs_files (f base : FileSettings) :
    ReadsAs (.table (fileFields f)) (fun node => layKeys expected fileKeys node base)
      { f with exclude := some (f.exclude.getD []) } := by
  refine readsAs_table (by decide) (.refl _) ?_
  exact .of_eq (.append (.optional rfl (readsAs_list _)) (.scalar rfl (readsAs_int _))) rfl

/-- The entries of settings are read as what is stored. -/
theorem readsAs_entries {s : Settings} (distinct : s.overrides.Distinct) :
    ReadsAs (.table s.entries) (fun node => layKeys expected keys node {}) s.stored := by
  refine readsAs_table (by decide) (names_entries s) ?_
  exact .of_eq (.append (.append (.append (.append (.append (.append
    (.scalar rfl (readsAs_text _))
    (.textField (.scalar rfl (readsAs_text _)) rfl))
    (.of_rule rfl (readsAs_analysis s _)))
    (.nested rfl (readsAs_output _ rfl)))
    (.nested rfl (readsAs_smells _ _)))
    (lays_overrides distinct rfl))
    (.nested rfl (readsAs_files _ _))) rfl

/-- A document that denotes the entries of settings gives what is stored, without any fault. -/
theorem ofDocument_of_denotes {s : Settings} (distinct : s.overrides.Distinct)
    {document : Document} (denotes : document.root.Denotes (.table s.entries)) :
    ofDocument document = .ok s.stored := by
  have laid : lay {} document = .ok (s.stored, []) :=
    decode_of_decodes (readsAs_entries distinct document.root denotes)
  rw [ofDocument, laid]

end Settings

/-! ## Validity -/

/-- What validity says, part by part. -/
structure Settings.Valid (s : Settings) : Prop where
  thresholds : ¬ (s.thresholds.excellent < s.thresholds.good ∨ s.thresholds.good < s.thresholds.fair
    ∨ s.thresholds.fair < s.thresholds.poor)
  format : s.output.format ∈ outputFormats
  maxWorkers : ¬ s.maxWorkers < 1
  maxAllowedCalls : ¬ s.smells.duplicateMethodCall.maxAllowedCalls < 1
  maxInstanceVariables : ¬ s.smells.tooManyInstanceVariables.maxInstanceVariables < 0
  patterns : badPattern? s.smells.duplicateMethodCall.allowCalls = none
  overrides : ∀ scope ∈ s.overrides, ∀ smell ∈ scope.2, smell.2.fault? smell.1 = none

theorem check_eq_none_iff {α : Type} {c : Prop} [Decidable c] {fault : α} {rest : Option α} :
    (if c then some fault else rest) = none ↔ ¬ c ∧ rest = none := by
  by_cases h : c <;> simp [h]

theorem Settings.fault?_eq_none_iff (s : Settings) : s.fault? = none ↔ s.Valid := by
  have inOverrides : (s.overrides.findSome? fun scope => scope.2.findSome? fun smell =>
        (smell.2.fault? smell.1).map (SettingsFault.inOverride scope.1))
      = none ↔ ∀ scope ∈ s.overrides, ∀ smell ∈ scope.2, smell.2.fault? smell.1 = none := by
    simp [List.findSome?_eq_none_iff]
  simp only [fault?, check_eq_none_iff, not_not]
  constructor
  · rintro ⟨thresholds, format, workers, calls, limit, rest⟩
    cases patterns : badPattern? s.smells.duplicateMethodCall.allowCalls with
    | some bad =>
      rw [patterns] at rest
      cases rest
    | none =>
      rw [patterns] at rest
      exact ⟨thresholds, format, workers, calls, limit, patterns, inOverrides.1 rest⟩
  · rintro ⟨thresholds, format, workers, calls, limit, patterns, overrides⟩
    refine ⟨thresholds, format, workers, calls, limit, ?_⟩
    rw [patterns]
    exact inOverrides.2 overrides

theorem Settings.validate_eq_ok_iff (s : Settings) : s.validate = .ok () ↔ s.Valid := by
  rw [← fault?_eq_none_iff, validate]
  cases s.fault? with
  | none => exact iff_of_true rfl rfl
  | some fault => exact iff_of_false (by rintro ⟨⟩) (by rintro ⟨⟩)

end CodeSmell
