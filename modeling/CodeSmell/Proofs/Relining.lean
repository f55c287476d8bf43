import CodeSmell.Proofs.Groups
import CodeSmell.Proofs.InstanceVariables
import CodeSmell.Proofs.Lines
import CodeSmell.Proofs.Reports
import Mathlib.Order.ConditionallyCompleteLattice.Basic
import Mathlib.Data.Int.ConditionallyCompleteOrder

/-!
# Lines are carried and never consulted

When a function is applied to the lines of a tree, its outline changes in the lines only
(`Tree.relined_outline`): scopes are opened with the same kinds and labels, and the same is observed
in the same places. What is noted for a scope is therefore the same but for the lines, and each
smell is found with the same words and counts. The least and the greatest line of a smell are
carried along if the function keeps the order of lines, and so are the lines of all warnings
(`Tree.examine_mapLines`).
-/

set_option autoImplicit false

namespace CodeSmell

/-! ## Scopes that a tree opens -/

namespace Tree

variable (f : Int → Int)

theorem isStructConstant_mapLines (t : Tree) :
    (t.mapLines f).isStructConstant = t.isStructConstant := by
  cases t with
  | atom a => rfl
  | node tag line cs =>
    cases tag with
    | other word unknown => rfl
    | known k => cases k <;> simp [isStructConstant]

theorem isStructTemplate_mapLines (t : Tree) :
    (t.mapLines f).isStructTemplate = t.isStructTemplate := by
  induction t using below_induction with
  | step t ih =>
    cases t with
    | atom a => rfl
    | node tag line cs =>
      cases tag with
      | other word unknown => rfl
      | known k =>
        cases k
        case call => simp [isStructTemplate, any_mapLines (isStructConstant_mapLines f)]
        case iter =>
          cases cs with
          | nil => rfl
          | cons first rest =>
            simpa [isStructTemplate] using ih first (below_of_mem _ line List.mem_cons_self)
        all_goals simp [isStructTemplate]

theorem hasStructTemplate_mapLines (cs : List Tree) :
    hasStructTemplate (cs.map (mapLines f)) = hasStructTemplate cs := by
  rw [hasStructTemplate, List.getElem?_map, any_mapLines (isStructTemplate_mapLines f),
    hasStructTemplate]

theorem scopeKind?_mapLines (t : Tree) : (t.mapLines f).scopeKind? = t.scopeKind? := by
  cases t with
  | atom a => rfl
  | node tag line cs =>
    cases tag with
    | other word unknown => rfl
    | known k => cases k <;> rfl

theorem bodyOf_mapLines (kind : ScopeKind) (t : Tree) :
    (t.mapLines f).bodyOf kind = (t.bodyOf kind).map (mapLines f) := by
  rw [bodyOf, bodyOf, hasWalkedBody, hasWalkedBody, children_mapLines, hasStructTemplate_mapLines,
    apply_ite (List.map (mapLines f)), List.map_drop, List.map_nil]

theorem methodNotes_mapLines (body : List Tree) :
    methodNotes (body.map (mapLines f)) = methodNotes body := by
  have count := countStatements_mapLines f body
  rcases body with _ | ⟨_ | _, _ | _⟩
  case cons.node.nil tag line cs =>
    cases tag with
    | other word unknown => rfl
    | known k => cases k <;> rfl
  case cons.node.cons | cons.atom.cons => simpa [methodNotes, Int.ofNat_inj] using count
  all_goals rfl

theorem entryNotes_mapLines (kind : ScopeKind) (cs : List Tree) :
    entryNotes kind (cs.map (mapLines f)) = entryNotes kind cs := by
  cases kind <;> simp only [entryNotes, ← List.map_drop, methodNotes_mapLines]

theorem label_mapLines (kind : ScopeKind) (t : Tree) :
    label kind (t.mapLines f) = label kind t := by
  have named : renderAt (t.children.map (mapLines f)) 0 = renderAt t.children 0 := by
    simp [renderAt, Function.comp_def]
  have receiver := nodeAt?_mapLines f t.children 0
  cases kind <;> simp only [label, children_mapLines, nameAt_mapLines, named, receiver]
  cases nodeAt? t.children 0 <;> simp

end Tree

/-! ## Outlines -/

/-- Two openings make scopes that differ in their lines and nodes only: the second has the line of
the first with a function applied to it. -/
structure Opening.Relined (f : Int → Int) (o o' : Opening) : Prop where
  kind : o'.kind = o.kind
  label : o'.label = o.label
  line : o'.node.line = f o.node.line

namespace Item

/-- Two outlines differ in their lines only: those of the second are those of the first with a
function applied to them. -/
inductive Relined (f : Int → Int) : List Item → List Item → Prop
  | nil : Relined f [] []
  | note (o : Observation) {rest rest' : List Item} (later : Relined f rest rest') :
    Relined f (.note o :: rest) (.note (o.mapLines f) :: rest')
  | scope {o o' : Opening} {body body' rest rest' : List Item} (opening : o.Relined f o')
    (inside : Relined f body body') (later : Relined f rest rest') :
    Relined f (.scope o body :: rest) (.scope o' body' :: rest')
  | fault (e : RenderFault) {rest rest' : List Item} (later : Relined f rest rest') :
    Relined f (.fault e :: rest) (.fault e :: rest')

namespace Relined

variable {f : Int → Int}

theorem append {items items' more more' : List Item} (first : Relined f items items')
    (second : Relined f more more') : Relined f (items ++ more) (items' ++ more') := by
  induction first with
  | nil => exact second
  | note o _ ih => exact .note o ih
  | scope opening inside _ _ ih => exact .scope opening inside ih
  | fault e _ ih => exact .fault e ih

theorem flatMap {α : Type} {xs : List α} {g g' : α → List Item}
    (each : ∀ x ∈ xs, Relined f (g x) (g' x)) : Relined f (xs.flatMap g) (xs.flatMap g') := by
  induction xs with
  | nil => exact .nil
  | cons x xs ih =>
    obtain ⟨first, later⟩ := List.forall_mem_cons.1 each
    rw [List.flatMap_cons, List.flatMap_cons]
    exact first.append (ih later)

theorem notes (os : List Observation) :
    Relined f (Tree.notes os) (Tree.notes (os.map (Observation.mapLines f))) := by
  induction os with
  | nil => exact .nil
  | cons o os ih => exact .note o ih

end Relined

end Item

namespace Tree

open Item

variable {f : Int → Int}

theorem relined_callNote {t : Tree} (node : t.isNode) (method : Text) :
    Relined f [t.callNote method] [(t.mapLines f).callNote method] := by
  rcases t with ⟨tag, line, cs⟩ | a
  · rw [callNote, callNote, render_mapLines]
    cases (Tree.node tag line cs).render with
    | error e => exact .fault e .nil
    | ok signature => exact .note (.call ⟨signature, method, line⟩) .nil
  · cases node

theorem relined_move {m : Move} (nodes : ∀ u ∈ m.signed, u.isNode)
    (below : ∀ u ∈ m.trees, Relined f u.outline (u.mapLines f).outline) :
    Relined f m.outline (m.mapLines f).outline := by
  cases m with
  | note o => exact .note o .nil
  | sign t method => exact relined_callNote (nodes t List.mem_cons_self) method
  | visit t => exact below t List.mem_cons_self

/-- Only nodes are noted as calls. -/
theorem isNode_of_mem_signed {t u : Tree} (h : u ∈ t.signed) : u.isNode := by
  cases t with
  | atom a => cases h
  | node tag line cs =>
    have self : u = .node tag line cs := by
      unfold signed at h
      grind
    rw [self]
    rfl

theorem relined_ownScope {t : Tree}
    (below : ∀ u ∈ t.within, Relined f u.outline (u.mapLines f).outline) :
    Relined f t.ownScope (t.mapLines f).ownScope := by
  rw [ownScope, ownScope, scopeKind?_mapLines]
  cases found : t.scopeKind? with
  | none => exact .nil
  | some kind =>
    rw [within_of_scopeKind? found] at below
    have line : (t.mapLines f).line = f t.line := by
      cases t with
      | atom a => cases found
      | node tag line cs => rfl
    have entry : (entryNotes kind t.children).map (Observation.mapLines f)
        = entryNotes kind t.children := by
      refine (List.map_congr_left fun o mem => ?_).trans (List.map_id _)
      unfold entryNotes methodNotes at mem
      grind [Observation.mapLines]
    have inside : Relined f (t.scopeOutline kind) ((t.mapLines f).scopeOutline kind) := by
      rw [scopeOutline, scopeOutline, bodyOf_mapLines, children_mapLines, entryNotes_mapLines,
        List.flatMap_map]
      have notes := Relined.notes (f := f) (entryNotes kind t.children)
      rw [entry] at notes
      exact notes.append (.flatMap below)
    simp only [Option.map_some, Option.toList_some, opened, opening, label_mapLines]
    cases label kind t with
    | error e => exact .fault e .nil
    | ok l => exact .scope ⟨rfl, rfl, line⟩ inside .nil

/-- The outline of a tree carries its lines and does not depend on them otherwise. -/
theorem relined_outline (f : Int → Int) (t : Tree) :
    Relined f t.outline (t.mapLines f).outline := by
  induction t using walk_induction with
  | step t ih =>
    rw [outline_eq_moves, outline_eq_moves, moves_mapLines, List.flatMap_map]
    refine Relined.append (.flatMap fun m mem => ?_) (relined_ownScope fun u mem => ?_)
    · refine relined_move (fun u signed => ?_) fun u visited => ?_
      · apply isNode_of_mem_signed (t := t)
        rw [← flatMap_signed_moves]
        exact List.mem_flatMap_of_mem mem signed
      · exact ih u (List.mem_append_left _ (List.mem_flatMap_of_mem mem visited))
    · exact ih u (List.mem_append_right _ mem)

end Tree

/-! ## Facts -/

theorem Observation.reaches_mapLines (f : Int → Int) (o : Observation) (inner : List ScopeKind)
    (kind : ScopeKind) : (o.mapLines f).reaches inner kind = o.reaches inner kind := by
  cases o <;> rfl

namespace Item.Relined

variable {f : Int → Int} {items items' : List Item}

theorem faultAmong?_eq (h : Relined f items items') :
    faultAmong? items' = faultAmong? items := by
  induction h with
  | nil => rfl
  | note o _ ih => exact ih
  | scope _ _ _ ihBody ihRest => rw [faultAmong?, faultAmong?, fault?, fault?, ihBody, ihRest]
  | fault e _ _ => rfl

/-- The same is seen in outlines that differ in their lines, but for the lines. -/
theorem seenAll_eq (h : Relined f items items') (inner : List ScopeKind) (kind : ScopeKind) :
    seenAll inner kind items' = (seenAll inner kind items).map (Observation.mapLines f) := by
  induction h generalizing inner with
  | nil => rfl
  | note o _ ih =>
    rw [seenAll, seenAll, seen, seen, Observation.reaches_mapLines, List.map_append, ih]
    split <;> rfl
  | scope opening _ _ ihBody ihRest =>
    rw [seenAll, seenAll, seen, seen, List.map_append, opening.kind, ihBody, ihRest]
  | fault e _ ih => exact ih inner

end Item.Relined

/-- What was noted, with a function applied to the lines. -/
def Facts.mapLines (f : Int → Int) (facts : Facts) : Facts :=
  { facts with
    calls := facts.calls.map fun c => { c with line := f c.line }
    references := facts.references.mapValues f
    instanceVariables := facts.instanceVariables.mapValues fun use => (use.1, f use.2) }

theorem Facts.mapLines_note (f : Int → Int) (facts : Facts) (o : Observation) :
    (facts.note o).mapLines f = (facts.mapLines f).note (o.mapLines f) := by
  cases o <;> simp [note, mapLines, Observation.mapLines, Groups.mapValues_add]

theorem Facts.mapLines_noteAll (f : Int → Int) (facts : Facts) (os : List Observation) :
    (facts.noteAll os).mapLines f
      = (facts.mapLines f).noteAll (os.map (Observation.mapLines f)) := by
  induction os generalizing facts with
  | nil => rfl
  | cons o os ih =>
    rw [List.map_cons, noteAll, noteAll, List.foldl_cons, List.foldl_cons, ← mapLines_note]
    exact ih (facts.note o)

/-! ## Warnings -/

/-- The warning with a function applied to its lines. -/
def Warning.mapLines (f : Int → Int) (w : Warning) : Warning :=
  { w with lines := w.lines.map (List.map f) }

/-- Two scopes differ in their lines and nodes only. -/
structure Scope.Relined (f : Int → Int) (s s' : Scope) : Prop where
  kind : s'.kind = s.kind
  name : s'.name = s.name
  line : s'.line = f s.line
  facts : s'.facts = s.facts.mapLines f

theorem Facts.callGroups_mapLines (f : Int → Int) (facts : Facts) :
    (facts.mapLines f).callGroups = facts.callGroups.mapValues f := by
  rw [callGroups, callGroups, ← Groups.collect_mapValues]
  simp [mapLines, Groups.collect, List.filter_map, List.foldl_map, Function.comp_def]

theorem Scope.span_map {f : Int → Int} (mono : Monotone f) (lines : List Int) :
    span (lines.map f) = (span lines).map f := by
  cases lines with
  | nil => rfl
  | cons line lines =>
    have least : (lines.map f).foldl min (f line) = f (lines.foldl min line) := by
      rw [List.foldl_map]
      exact List.foldl_hom f fun a b => mono.map_min.symm
    have greatest : (lines.map f).foldl max (f line) = f (lines.foldl max line) := by
      rw [List.foldl_map]
      exact List.foldl_hom f fun a b => mono.map_max.symm
    rw [List.map_cons, span, span, least, greatest]
    rfl

namespace References

variable (f : Int → Int) (refs : References)

theorem highest_mapValues : highest (refs.mapValues f) = refs.highest := by
  simp [highest, Groups.mapValues, Function.comp_def]

theorem mostPopular_mapValues : mostPopular (refs.mapValues f) = refs.mostPopular := by
  rw [mostPopular, highest_mapValues, Groups.mapValues, List.filter_map, List.map_map]
  simp [mostPopular, Function.comp_def]

end References

namespace InstanceVariables

variable (f : Int → Int) (vars : InstanceVariables)

theorem isUsed_map (uses : List (Access × Int)) (access : Access) :
    isUsed (uses.map fun use => (use.1, f use.2)) access = isUsed uses access := by
  simp [isUsed, Function.comp_def]

theorem assumed_mapValues :
    assumed (vars.mapValues fun use => (use.1, f use.2)) = vars.assumed := by
  rw [assumed, Groups.mapValues, List.filter_map, List.map_map]
  simp [assumed, Function.comp_def, isUsed_map]

theorem held_mapValues :
    held (vars.mapValues fun use => (use.1, f use.2)) = vars.held := by
  rw [held, Groups.mapValues, List.filter_map, List.map_map]
  simp [held, Function.comp_def, isUsed_map]

end InstanceVariables

namespace Scope.Relined

variable {f : Int → Int} {s s' : Scope}

theorem warning_eq (h : s.Relined f s') (smell : Smell) (lines : List Int) (message : Text)
    (details : List (String × Datum)) :
    s'.warning smell (lines.map f) message details
      = (s.warning smell lines message details).mapLines f := by
  simp [Scope.warning, Warning.mapLines, h.name]

theorem duplicateCalls_eq (h : s.Relined f s') (o : SmellOptions) :
    s'.duplicateCalls o = (s.duplicateCalls o).map (Warning.mapLines f) := by
  rw [duplicateCalls, duplicateCalls, h.facts, Facts.callGroups_mapLines, Groups.mapValues,
    List.filter_map, List.map_map, List.map_map]
  simp only [Function.comp_def, List.length_map, h.warning_eq]

theorem envies_eq (mono : Monotone f) (h : s.Relined f s') :
    s'.envies = s.envies.map (Warning.mapLines f) := by
  have affinity : s'.facts.selfAffinity = s.facts.selfAffinity := by
    rw [h.facts]
    rfl
  have refs : s'.facts.references = s.facts.references.mapValues f := by
    rw [h.facts]
    rfl
  simp only [envies, affinity, refs, References.highest_mapValues, References.mostPopular_mapValues,
    Groups.get_mapValues, span_map mono, h.warning_eq]
  split
  · rfl
  · rw [List.map_map]
    rfl

theorem assumptions_eq (h : s.Relined f s') :
    s'.assumptions = s.assumptions.map (Warning.mapLines f) := by
  rw [assumptions, assumptions, h.facts, h.line]
  simp only [Facts.mapLines, InstanceVariables.assumed_mapValues, List.map_map, Function.comp_def,
    ← h.warning_eq, List.map_cons, List.map_nil]

theorem tooManyVariables_eq (h : s.Relined f s') (o : SmellOptions) :
    s'.tooManyVariables o = (s.tooManyVariables o).map (Warning.mapLines f) := by
  rw [tooManyVariables, tooManyVariables, h.facts, h.line]
  simp only [Facts.mapLines, InstanceVariables.held_mapValues]
  split
  · rfl
  · simp only [List.map_cons, List.map_nil, ← h.warning_eq]

/-- Each smell is found with the same words and counts, at the lines that are carried along. -/
theorem find_eq (mono : Monotone f) (h : s.Relined f s') (smell : Smell) (o : SmellOptions) :
    smell.find s' o = (smell.find s o).map (Warning.mapLines f) := by
  cases smell with
  | duplicateMethodCall => exact h.duplicateCalls_eq o
  | featureEnvy => exact h.envies_eq mono
  | instanceVariableAssumption => exact h.assumptions_eq
  | tooManyInstanceVariables => exact h.tooManyVariables_eq o

theorem warnings_eq (mono : Monotone f) (h : s.Relined f s') (settings : Settings)
    (around : Chain) :
    Chain.warnings settings (s' :: around)
      = (Chain.warnings settings (s :: around)).map (Warning.mapLines f) := by
  have names : Chain.names (s' :: around) = Chain.names (s :: around) := by
    refine Chain.names_congr (Chain.headings_cons_eq_iff.2 ⟨?_, rfl⟩)
    exact Prod.ext h.kind h.name
  unfold Chain.warnings
  rw [names, List.map_flatMap]
  refine congrArg (List.flatMap · Smell.all) (funext fun smell => ?_)
  simp only [h.kind, h.find_eq mono]
  split <;> rfl

end Scope.Relined

theorem Opening.Relined.scopeIn {f : Int → Int} {o o' : Opening} (h : o.Relined f o')
    (around : Chain) : (o.scopeIn around).Relined f (o'.scopeIn around) where
  kind := h.kind
  name := by
    simp only [Opening.scopeIn, nameIn, h.label]
  line := h.line
  facts := rfl

/-- Outlines that differ in their lines report the same, but for the lines. -/
theorem Item.Relined.reportedAll_eq {f : Int → Int} (mono : Monotone f) {items items' : List Item}
    (h : Relined f items items') (settings : Settings) (around : Chain) :
    reportedAll settings around items'
      = (reportedAll settings around items).map (Warning.mapLines f) := by
  induction h generalizing around with
  | nil => rfl
  | note o _ ih => exact ih around
  | @scope o o' body body' rest rest' opening inside later ihBody ihRest =>
    have opened := opening.scopeIn around
    -- inside the scope only its heading matters, and the headings are the same
    have headings : Chain.headings (o'.scopeIn around :: around)
        = Chain.headings (o.scopeIn around :: around) :=
      Chain.headings_cons_eq_iff.2 ⟨Prod.ext opened.kind opened.name, rfl⟩
    have completed : ((o.scopeIn around).noteAll (seenAll [] o.kind body)).Relined f
        ((o'.scopeIn around).noteAll (seenAll [] o'.kind body')) := by
      refine ⟨opened.kind, opened.name, opened.line, ?_⟩
      rw [opening.kind, inside.seenAll_eq]
      simp only [Scope.noteAll, opened.facts, Facts.mapLines_noteAll]
    simp only [reportedAll, reported, List.map_append, ihRest, completed.warnings_eq mono,
      reportedAll_congr settings body' headings, ihBody]
  | fault e _ ih => exact ih around

namespace Tree

/-- Lines are carried and never consulted: when a function that keeps their order is applied to the
lines of all nodes of a tree, its examination yields the same warnings in the same order, with the
function applied to their lines. -/
theorem examine_mapLines {f : Int → Int} (mono : Monotone f) (settings : Settings) (source : Text)
    (t : Tree) (ws : List Warning) (h : t.examine settings source = .ok ws) :
    (t.mapLines f).examine settings source = .ok (ws.map (Warning.mapLines f)) := by
  obtain ⟨proper, sound, rfl⟩ := examine_eq_ok_iff.1 h
  have outlines := relined_outline f t
  refine examine_eq_ok_iff.2 ⟨?_, ?_, ?_⟩
  · exact (malformed?_mapLines f t).2 proper
  · exact outlines.faultAmong?_eq.trans sound
  · rw [outlines.reportedAll_eq mono, List.map_map, List.map_map]
    rfl

end Tree

/-- A class with a method that repeats a call, uses another object more than its own, and reads a
variable that is never set. -/
def parcelClass : Tree :=
  let name (text : String) := Tree.atom (.sym text)
  let call (line : Int) (method : String) :=
    Tree.known .call line [.known .lvar line [name "rate"], name method]
  .known .classDef 1 [name "Parcel", .atom .nil,
    .known .defn 2 [name "cost", call 3 "base", call 4 "extra", .known .ivar 5 [name "@weight"],
      call 6 "base"]]

set_option maxRecDepth 4000 in
/-- Halving keeps the order of lines and makes different lines equal: the repeated calls are now on
lines 1 and 3, and so are the first and the last use of the envied object. -/
theorem parcelClass_examine_halved :
    Monotone (fun line : Int => line / 2) ∧
      ∃ ws, parcelClass.examine {} "parcel" = .ok ws ∧
        ws.map Warning.lines = [some [3, 6], some [3, 6], some [1]] ∧
        ∃ halved, (parcelClass.mapLines fun line => line / 2).examine {} "parcel" = .ok halved ∧
          halved.map Warning.lines = [some [1, 3], some [1, 3], some [0]] := by
  have mono : Monotone (fun line : Int => line / 2) := fun a b le => Int.ediv_le_ediv (by decide) le
  have run : parcelClass.examine {} "parcel"
      = .ok (warningsAbout {} "parcel" parcelClass.walk.completed) := rfl
  have lines : (warningsAbout {} "parcel" parcelClass.walk.completed).map Warning.lines
      = [some [3, 6], some [3, 6], some [1]] := by
    simp only [warningsAbout, Chain.warnings, resolve_default]
    rfl
  refine ⟨mono, _, run, lines, _, Tree.examine_mapLines mono {} "parcel" parcelClass _ run, ?_⟩
  have carried : (Warning.lines ∘ Warning.mapLines fun line => line / 2)
      = (Option.map (List.map fun line => line / 2)) ∘ Warning.lines := rfl
  rw [List.map_map, carried, ← List.map_map, lines]
  rfl

end CodeSmell
