import CodeSmell.Proofs.Yaml.Arranging
import CodeSmell.Proofs.Yaml.Decoding

/-!
# Tables that are kept

A node that shows a value denotes it, if the value's texts and names are kept
(`Value.Keeps.denotes`). So a written table is read as a document that denotes it (`codec_keeps`).
-/

set_option autoImplicit false

namespace CodeSmell

namespace Yaml

variable {α : Type} {node : Node}

/-! ## Scalars and lists -/

namespace Node

theorem decodes_scalar {expected : String} {value? : Text → Meaning → Option α} {value : String}
    {plain : Bool} {line : Nat} {d : Meaning} {a : α}
    (meant : (if plain then Meaning.ofPlain value else .string) = d) (notNull : d ≠ .null)
    (known : value? value d = some a) :
    Decodes (decodeScalar expected value? (.scalar value plain none line)) (some a) := by
  refine decodes_follow (by simp) ?_
  refine Decodes.bind (a := (Text.ofString value, d)) ?_ ?_
  · rw [meaning, meant]
    exact Decodes.pure _
  · cases d with
    | null => exact absurd rfl notNull
    | _ =>
      dsimp only
      rw [known]
      exact Decodes.pure _

/-- A text that is written plain is read as a text. -/
theorem ofPlain_of_isPlainText {s : String} (plain : isPlainText s = true) :
    Meaning.ofPlain s = .string := by
  have reads := (Bool.and_eq_true_iff.1 plain).1
  unfold readsAsText at reads
  split at reads
  · assumption
  · cases reads

theorem decodes_string {s : String} (shows : ShowsText s node) :
    Decodes node.decodeString (some (Text.ofString s)) := by
  obtain ⟨line, rfl⟩ := shows
  rw [Text.shown_ofString]
  refine decodes_scalar (d := .string) ?_ (by simp) rfl
  split
  · exact ofPlain_of_isPlainText ‹_›
  · rfl

theorem decodes_int {n : Int} (fits : fitsInt64 n = true) (line : Nat) :
    Decodes (decodeInt (.scalar (toString n) true none line)) (some n) :=
  decodes_scalar (ofPlain_toString fits) (by simp) (if_pos fits)

theorem decodes_bool (b : Bool) (line : Nat) :
    Decodes (decodeBool (.scalar (boolWord b) true none line)) (some b) := by
  cases b
  · exact decodes_scalar (d := .bool false) rfl (by simp) rfl
  · exact decodes_scalar (d := .bool true) rfl (by simp) rfl

theorem decodes_strings {items : List Text} {nodes : List Node} (line : Nat)
    (kept : ∀ t ∈ items, KeptText true t) (shows : List.Forall₂ ShowsText items nodes) :
    Decodes (decodeStrings (.sequence nodes none line)) (some items) := by
  have each : List.Forall₂ (fun node text => Decodes (decodeString node) text) nodes
      (items.map some) := by
    induction shows with
    | nil => exact .nil
    | cons first _ ih =>
      obtain ⟨⟨s, rfl, -⟩, later⟩ := List.forall_mem_cons.1 kept
      exact .cons (decodes_string first) (ih later)
  have all := (decodes_mapM each).bind (f := fun texts => pure (some (texts.filterMap id)))
    (Decodes.pure _)
  rw [List.filterMap_map, Function.id_comp, List.filterMap_some] at all
  exact decodes_follow (by simp) all

end Node

/-! ## Tables -/

theorem KeptName.ofString_shown {t : Text} (kept : KeptName t) : Text.ofString t.shown = t := by
  obtain ⟨s, rfl, -, -⟩ := kept
  rw [Text.shown_ofString]

namespace FieldsShow

variable {fields : List (Text × Value)} {entries : List (Node × Node)}

theorem exists_name_of_mem (shows : FieldsShow fields entries) {entry : Node × Node}
    (mem : entry ∈ entries) : ∃ field ∈ fields, ShowsText field.1 entry.1 := by
  induction fields generalizing entries with
  | nil =>
    cases shows
    cases mem
  | cons field fields ih =>
    cases shows with
    | cons shownKey _ shows =>
      rcases List.mem_cons.1 mem with rfl | mem
      · exact ⟨_, List.mem_cons_self, shownKey⟩
      · obtain ⟨field, listed, shown⟩ := ih shows mem
        exact ⟨field, List.mem_cons_of_mem _ listed, shown⟩

/-- No name that is kept takes entries over from elsewhere. -/
theorem isMergeKey_eq_false (shows : FieldsShow fields entries)
    (names : ∀ field ∈ fields, KeptName field.1) :
    ∀ entry ∈ entries, entry.1.isMergeKey = false := by
  intro entry mem
  obtain ⟨field, listed, line, key⟩ := shows.exists_name_of_mem mem
  obtain ⟨s, spelled, own, -⟩ := names field listed
  rw [key, spelled, Text.shown_ofString, Node.isMergeKey, beq_eq_false_iff_ne.2 own, Bool.false_and]

/-- Distinct names give distinct keys. -/
theorem repeatedKeys_eq_nil (shows : FieldsShow fields entries)
    (names : ∀ field ∈ fields, KeptName field.1) (distinct : (fields.map Prod.fst).Nodup) :
    Node.repeatedKeys (entries.map Prod.fst) = [] := by
  induction fields generalizing entries with
  | nil =>
    cases shows
    rfl
  | cons field fields ih =>
    cases shows with
    | @cons name _ key _ _ entries shownKey _ shows =>
      obtain ⟨new, distinct⟩ := List.nodup_cons.1 distinct
      obtain ⟨first, names⟩ := List.forall_mem_cons.1 names
      have noOther : (entries.map Prod.fst).filter (Node.sameKey key) = [] := by
        refine List.filter_eq_nil_iff.2 fun other mem same => ?_
        obtain ⟨entry, inEntries, rfl⟩ := List.mem_map.1 mem
        obtain ⟨field', listed, line', other⟩ := shows.exists_name_of_mem inEntries
        obtain ⟨line, rfl⟩ := shownKey
        rw [other] at same
        -- equal keys show the same string, and names that are kept are determined by theirs
        have shown : name.shown = field'.1.shown := eq_of_beq same
        have again : field'.1 = name := by
          rw [← (names field' listed).ofString_shown, ← shown, first.ofString_shown]
        exact new (List.mem_map.2 ⟨field', listed, again⟩)
      rw [List.map_cons, Node.repeatedKeys, noOther, ih shows names distinct]
      rfl

end FieldsShow

/-- A node that shows a value that is kept denotes it. -/
theorem Value.Keeps.denotes {n : Nat} {v : Value} (keeps : v.Keeps n) (shows : v.Shows node) :
    node.Denotes v := by
  induction keeps generalizing node with
  | int fits =>
    cases shows with
    | int n line => exact .int (Node.decodes_int fits line)
  | bool b =>
    cases shows with
    | bool _ line => exact .bool (Node.decodes_bool b line)
  | text kept =>
    obtain ⟨s, rfl, -⟩ := kept
    cases shows with
    | text shown => exact .text (Node.decodes_string shown)
  | list kept =>
    cases shows with
    | list line shown => exact .list (Node.decodes_strings line kept shown)
  | @table n fields distinct names values ih =>
    cases shows with
    | @table _ entries line shown =>
      refine .table (shown.repeatedKeys_eq_nil names distinct) (shown.isMergeKey_eq_false names) ?_
      -- what is left holds field by field, whether or not the names differ
      clear distinct values
      induction fields generalizing entries with
      | nil =>
        cases shown
        exact .nil
      | cons field fields ihFields =>
        cases shown with
        | cons shownKey shownValue shown =>
          obtain ⟨⟨s, rfl, -, -⟩, laterNames⟩ := List.forall_mem_cons.1 names
          obtain ⟨first, later⟩ := List.forall_mem_cons.1 ih
          exact .cons (Node.decodes_string shownKey) (first shownValue)
            (ihFields laterNames later shown)

/-! ## Documents -/

/-- A table that is kept and is not empty is read as it was written. -/
theorem codec_keeps {n : Nat} {fields : List (Text × Value)} (some : fields ≠ [])
    (keeps : (Value.table fields).Keeps (n + 1)) (room : n + 1 ≤ ScanState.mostOpen) :
    codec.Keeps fields := by
  cases fields with
  | nil => exact absurd rfl some
  | cons field fields =>
    obtain ⟨node, bound, read, shows⟩ := read_writeFields keeps room
    refine ⟨⟨node, [], bound⟩, ?_, keeps.denotes shows⟩
    rw [codec]
    dsimp only
    rw [Text.toString?_ofString]
    exact read

end Yaml

end CodeSmell
