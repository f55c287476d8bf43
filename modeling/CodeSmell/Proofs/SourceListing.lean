import CodeSmell.Proofs.Groups
import CodeSmell.Proofs.RoundTrip
import CodeSmell.Report.Console
import Mathlib.Algebra.GroupWithZero.Nat

/-!
# Warnings by source

Without colours the console report lists the warnings source by source. `Console.listing` says what
its lines are: for each source, in order of first appearance, a heading with the number of its
warnings, one line for each of them in their own order, and an empty line. The warnings that are
listed are all the warnings, each once, and those about a source keep their order
(`Groups.perm_flatMap_filter`, `Groups.filter_flatMap_filter`).

A line of the listing is a line of the report as long as the texts of the warnings hold no line
breaks of their own.
-/

set_option autoImplicit false

namespace CodeSmell

/-! ## Items key by key -/

namespace Groups

variable {κ α : Type} [DecidableEq κ] (key : α → κ) {keys : List κ} {items : List α}

/-- Items listed key by key: those with one of the keys are all there, in their own order. -/
theorem filter_flatMap_filter (distinct : keys.Nodup) (items : List α) (k : κ) :
    (keys.flatMap fun k' => items.filter fun item => key item = k').filter
        (fun item => key item = k)
      = if k ∈ keys then items.filter fun item => key item = k else [] := by
  induction keys with
  | nil => rfl
  | cons first keys ih =>
    obtain ⟨fresh, distinct⟩ := List.nodup_cons.1 distinct
    rw [List.flatMap_cons, List.filter_append, ih distinct, List.filter_filter]
    by_cases same : k = first
    · subst same
      rw [if_neg fresh, if_pos List.mem_cons_self, List.append_nil]
      simp only [Bool.and_self]
    · have none : (items.filter fun item => decide (key item = k) && decide (key item = first))
          = [] := by
        rw [List.filter_eq_nil_iff]
        intro item _ both
        rw [Bool.and_eq_true, decide_eq_true_eq, decide_eq_true_eq] at both
        exact same (both.1.symm.trans both.2)
      rw [none, List.nil_append]
      simp only [List.mem_cons, same, false_or]

/-- Items listed key by key are the same items, if their keys are all there and differ. -/
theorem perm_flatMap_filter (distinct : keys.Nodup) (covered : ∀ item ∈ items, key item ∈ keys) :
    (keys.flatMap fun k => items.filter fun item => key item = k).Perm items := by
  induction keys generalizing items with
  | nil =>
    rw [List.eq_nil_iff_forall_not_mem.2 fun item mem => List.not_mem_nil (covered item mem)]
    exact .refl _
  | cons first keys ih =>
    obtain ⟨fresh, distinct⟩ := List.nodup_cons.1 distinct
    -- what does not have the first key is listed under the others
    have others : (keys.flatMap fun k => items.filter fun item => key item = k)
        = keys.flatMap fun k => (items.filter fun item => !decide (key item = first)).filter
            fun item => key item = k := by
      refine List.flatMap_congr fun k mem => ?_
      rw [List.filter_filter]
      refine List.filter_congr fun item _ => ?_
      by_cases own : key item = k
      · have other : key item ≠ first := fun h => fresh (h ▸ own ▸ mem)
        simp [own, own ▸ other]
      · simp [own]
    rw [List.flatMap_cons, others]
    refine List.Perm.trans (List.Perm.append_left _ (ih distinct ?_))
      (List.filter_append_perm (fun item => decide (key item = first)) items)
    intro item mem
    obtain ⟨listed, other⟩ := List.mem_filter.1 mem
    rcases List.mem_cons.1 (covered item listed) with same | later
    · simp [same] at other
    · exact later

end Groups

/-! ## Lines -/

namespace Text

/-- Text of one line after the other. -/
def ofLines (lines : List Text) : Text := lines.flatMap (· ++ "\n")

/-- Text without a line break. -/
def IsLine (t : Text) : Prop := 10 ∉ t

instance (t : Text) : Decidable t.IsLine := inferInstanceAs (Decidable (10 ∉ t))

theorem ofLines_append (lines more : List Text) :
    ofLines (lines ++ more) = ofLines lines ++ ofLines more := List.flatMap_append

theorem isLine_append {t t' : Text} : (t ++ t').IsLine ↔ t.IsLine ∧ t'.IsLine := by
  rw [IsLine, List.mem_append, not_or]
  rfl

theorem isLine_ofString {s : String} (unbroken : '\n' ∉ s.toList) : (ofString s).IsLine := by
  intro mem
  obtain ⟨c, listed, inside⟩ := List.mem_flatMap.1 mem
  have code : c.toNat = 10 := toNat_of_mem_utf8EncodeChar inside (by decide)
  have same : c = '\n' := by
    rw [← Char.ofNat_toNat c, code]
  exact unbroken (same ▸ listed)

theorem isLine_ofInt (n : Int) : (ofInt n).IsLine := by
  apply isLine_ofString
  intro mem
  rcases Decimal.isDigit_or_eq_of_mem_toString _ mem with digit | sign
  · exact absurd digit (by decide)
  · exact absurd sign (by decide)

theorem isLine_join {separator : Text} {ts : List Text} (single : separator.IsLine)
    (lines : ∀ t ∈ ts, t.IsLine) : (join separator ts).IsLine := by
  induction ts with
  | nil => exact List.not_mem_nil
  | cons t ts ih =>
    cases ts with
    | nil =>
      rw [join, List.intercalate_singleton]
      exact lines t List.mem_cons_self
    | cons next ts =>
      rw [join, List.intercalate_cons_cons, isLine_append, isLine_append]
      exact ⟨⟨lines t List.mem_cons_self, single⟩,
        ih fun t mem => lines t (List.mem_cons_of_mem _ mem)⟩

end Text

/-- The texts of a warning have no line breaks. -/
structure Warning.OnOneLine (w : Warning) : Prop where
  source : w.source.IsLine
  context : w.context.IsLine
  smell : '\n' ∉ w.smell.toList
  message : w.message.IsLine

/-! ## The listing -/

namespace Console

variable {ws : List Warning}

/-- The sources of warnings, in order of first appearance. -/
def sources (ws : List Warning) : List Text := (ws.map Warning.source).eraseDups

/-- The warnings about a source, in order. -/
def warningsAbout (ws : List Warning) (source : Text) : List Warning :=
  ws.filter fun w => w.source = source

/-- The heading of a source with a number of warnings. -/
def headingLine (source : Text) (n : Nat) : Text :=
  source ++ " -- " ++ Text.ofInt n ++ " warnings:"

/-- A warning without colours. -/
def plainLine (w : Warning) : Text :=
  "  [" ++ Text.join ", " ((w.lines.getD []).map Text.ofInt) ++ "]: " ++ w.context
    ++ " (" ++ Text.ofString w.smell ++ ") " ++ w.message

/-- The lines that list warnings by source. -/
def listing (ws : List Warning) : List Text :=
  (sources ws).flatMap fun source =>
    headingLine source (warningsAbout ws source).length
      :: (warningsAbout ws source).map plainLine ++ [[]]

theorem warningLine_eq (w : Warning) : warningLine false w = plainLine w ++ "\n" := by
  simp only [warningLine, plainLine, lineList, paint, Bool.false_eq_true, if_false]
  simp only [List.append_assoc]
  rfl

theorem sourceBlock_eq (source : Text) (own : List Warning) :
    sourceBlock false source own
      = Text.ofLines (headingLine source own.length :: own.map plainLine ++ [[]]) := by
  have lines : own.flatMap (warningLine false) = Text.ofLines (own.map plainLine) := by
    rw [Text.ofLines, List.flatMap_map]
    exact List.flatMap_congr fun w _ => warningLine_eq w
  rw [sourceBlock, lines, Text.ofLines_append]
  simp only [Text.ofLines, headingLine, paint, Bool.false_eq_true, if_false, List.flatMap_cons,
    List.flatMap_nil, List.append_assoc, List.append_nil, List.nil_append]
  rfl

/-- Without colours, what stands in the report is the listing. -/
theorem sourceBlocks_eq (ws : List Warning) :
    sourceBlocks false ws = Text.ofLines (listing ws) := by
  rw [sourceBlocks, Groups.collect_eq, List.flatMap_map, listing, Text.ofLines,
    List.flatMap_assoc]
  refine List.flatMap_congr fun source _ => ?_
  rw [List.map_id]
  exact sourceBlock_eq source _

theorem nodup_sources (ws : List Warning) : (sources ws).Nodup := by
  have distinct := Groups.nodup_keys_collect Warning.source id ws
  rwa [Groups.keys_collect] at distinct

theorem source_mem_sources {w : Warning} (mem : w ∈ ws) : w.source ∈ sources ws :=
  List.mem_eraseDups.2 (List.mem_map_of_mem mem)

theorem isLine_plainLine {w : Warning} (single : w.OnOneLine) : (plainLine w).IsLine := by
  have numbers : (Text.join ", " ((w.lines.getD []).map Text.ofInt)).IsLine := by
    refine Text.isLine_join (by decide) fun t mem => ?_
    obtain ⟨n, -, rfl⟩ := List.mem_map.1 mem
    exact Text.isLine_ofInt n
  simp only [plainLine, Text.isLine_append]
  exact ⟨⟨⟨⟨⟨⟨⟨by decide, numbers⟩, by decide⟩, single.context⟩, by decide⟩,
    Text.isLine_ofString single.smell⟩, by decide⟩, single.message⟩

/-- The lines of the listing are lines of text if the texts of the warnings have no line breaks. -/
theorem isLine_of_mem_listing (single : ∀ w ∈ ws, w.OnOneLine) :
    ∀ line ∈ listing ws, line.IsLine := by
  intro line mem
  obtain ⟨source, known, inBlock⟩ := List.mem_flatMap.1 mem
  obtain ⟨w, listed, rfl⟩ := List.mem_map.1 (List.mem_eraseDups.1 known)
  rcases List.mem_append.1 inBlock with inLines | last
  · rcases List.mem_cons.1 inLines with rfl | inWarnings
    · simp only [headingLine, Text.isLine_append]
      exact ⟨⟨⟨(single w listed).source, by decide⟩, Text.isLine_ofInt _⟩, by decide⟩
    · obtain ⟨w', own, rfl⟩ := List.mem_map.1 inWarnings
      exact isLine_plainLine (single w' (List.mem_filter.1 own).1)
  · rw [List.mem_singleton.1 last]
    exact List.not_mem_nil

/-- The last line of a report, with its line break. -/
def closing (r : Result) : Text := "Analysis completed in " ++ Text.ofString r.duration ++ "\n"

/-- Behind the listing the report has one more line. -/
theorem sourceBlocks_suffix_report (s : Settings) (r : Result) :
    sourceBlocks s.output.colors r.warnings ++ paint s.output.colors .white (closing r)
      <:+ report s r := by
  have inFindings : sourceBlocks s.output.colors r.warnings <:+ findings s.output.colors r := by
    rw [findings]
    split
    next none =>
      rw [List.isEmpty_iff.1 none]
      exact List.nil_suffix
    next => exact List.suffix_append _ _
  have around : ∀ before part whole after : Text,
      part <:+ whole → part ++ after <:+ before ++ whole ++ after := by
    rintro before part whole after ⟨front, rfl⟩
    exact ⟨before ++ front, by simp only [List.append_assoc]⟩
  exact around _ _ _ _ inFindings

/-- Settings without colours. -/
def plainSettings : Settings := { output := { colors := false } }

/-- Warnings about two sources in turn, one of which has no name. -/
def kioskResult : Result where
  files := ["kiosk.sexp", ""]
  warnings :=
    [{ smell := "FeatureEnvy", severity := .medium, source := "kiosk.sexp", context := "Kiosk#sell",
        lines := some [3, 5], message := "refers to 'till'" },
      { smell := "Other", severity := .low },
      { smell := "DuplicateMethodCall", severity := .low, source := "kiosk.sexp",
        context := "Kiosk#open", lines := some [9], message := "calls 'door.key' 2 times" }]
  duration := "2ms"

/-- How these warnings are listed: the third one stands with the first one, and the source without a
name has a heading of its own. -/
def kioskLines : List String :=
  ["kiosk.sexp -- 2 warnings:",
    "  [3, 5]: Kiosk#sell (FeatureEnvy) refers to 'till'",
    "  [9]: Kiosk#open (DuplicateMethodCall) calls 'door.key' 2 times",
    "",
    " -- 1 warnings:",
    "  []:  (Other) ",
    ""]

end Console

end CodeSmell
