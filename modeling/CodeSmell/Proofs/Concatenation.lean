import CodeSmell.Proofs.Encoding
import CodeSmell.Proofs.InstanceVariables
import CodeSmell.Proofs.ReadAtoms
import CodeSmell.Proofs.Reports
import Mathlib.Tactic.SplitIfs

/-!
# Texts one after the other

At the end of a text that holds trees the machine is between two of them, or in a last comment, and
no node is open (`Reader.State.finish_eq_ok`). A line break then leaves it in the state in which it
started, but for the trees that it has finished and for its position. It never looks at either
(`Reader.State.Follows.run`), so a second text behind the line break is read like a text of its own
(`Tree.read_append_newline`).

The trees of a text are examined one after the other, and none changes what is reported about
another. The warnings about both texts together are thus those about the first, followed by those
about the second (`Tree.examine_append_newline`).
-/

set_option autoImplicit false

namespace CodeSmell

namespace Reader

/-- Whether the machine is inside of a word, a string literal or a regular expression. -/
def Mode.isElement : Mode → Bool
  | .word _ | .slash | .regexp _ _ | .string _ _ => true
  | .blank | .comment _ | .opened | .head _ => false

namespace State

/-! ## The end of a text -/

/-- Words, string literals and regular expressions are read inside of nodes only. -/
def Nested (s : State) : Prop := s.mode.isElement → s.frames ≠ []

variable {s s' : State} {c : Char}

theorem nested_of_mode (h : s.mode.isElement = false) : s.Nested := by
  intro element
  rw [h] at element
  cases element

theorem nested_add (s : State) (t : Tree) : (s.add t).Nested :=
  nested_of_mode (by rw [mode_add]; rfl)

theorem Between.nested (outside : s.mode = .blank) (between : s.Between c s') : s'.Nested := by
  cases between with
  | comment | opening => exact nested_of_mode rfl
  | blank => exact nested_of_mode (congrArg Mode.isElement outside)
  | closing _ inside =>
    have finished : (s.advance c).close.mode = .blank := mode_close inside
    exact nested_of_mode (congrArg Mode.isElement finished)
  | quote _ inside | slash _ inside | word _ _ inside => exact fun _ => inside

theorem InRegexp.isElement_mode {taken : List Char} {escaped : Bool}
    (reads : s.InRegexp c taken escaped) : s.mode.isElement = true := by
  cases reads with
  | first mode | later mode => exact congrArg Mode.isElement mode

theorem Within.nested (nested : s.Nested) (within : s.Within c s') : s'.Nested := by
  have inside (element : s.mode.isElement = true) : (s.advance c).frames ≠ [] := nested element
  cases within with
  | comment mode | blankBeforeTag mode => exact nested_of_mode (congrArg Mode.isElement mode)
  | @lineEnd beforeTag => cases beforeTag <;> exact nested_of_mode rfl
  | commentBeforeTag | headStart | head => exact nested_of_mode rfl
  | word mode | hiddenInString mode | string mode =>
    exact fun _ => inside (congrArg Mode.isElement mode)
  | hiddenInRegexp reads | regexp reads => exact fun _ => inside reads.isElement_mode
  | regexpEnd | stringEnd => exact nested_add _ _

/-- A character leads into an element only inside of a node. -/
theorem nested_step (nested : s.Nested) (h : s.step c = .ok s') : s'.Nested := by
  rcases step_cases h with within | ⟨between, ended, starts⟩
  · exact within.nested nested
  · exact starts.nested ended.mode_eq

theorem nested_run {cs : List Char} (nested : s.Nested) (h : cs.foldlM step s = .ok s') :
    s'.Nested := by
  induction cs generalizing s with
  | nil =>
    cases h
    exact nested
  | cons c cs ih =>
    rw [List.foldlM_cons] at h
    obtain ⟨next, stepped, ran⟩ := exists_ok_of_bind h
    exact ih (nested_step nested stepped) ran

theorem finishBlank_eq_ok {t : Tree} (h : s.finishBlank = .ok t) :
    s.frames = [] ∧ t = s.result := by
  unfold finishBlank at h
  split at h
  next => cases h
  next none =>
    cases h
    exact ⟨none, rfl⟩

/-- A text ends well only outside of all nodes. The machine is then between two elements or in a
comment. -/
theorem finish_eq_ok {t : Tree} (nested : s.Nested) (h : s.finish = .ok t) :
    s.frames = [] ∧ t = s.result ∧ (s.mode = .blank ∨ s.mode = .comment false) := by
  unfold finish at h
  split at h
  case h_1 mode =>
    obtain ⟨none, result⟩ := finishBlank_eq_ok h
    exact ⟨none, result, .inl mode⟩
  case h_2 mode =>
    obtain ⟨none, result⟩ := finishBlank_eq_ok h
    exact ⟨none, result, .inr mode⟩
  case h_3 taken mode =>
    obtain ⟨none, -⟩ := finishBlank_eq_ok h
    exact absurd none (nested (by rw [mode]; rfl))
  case h_4 mode =>
    obtain ⟨none, -⟩ := finishBlank_eq_ok h
    exact absurd none (nested (by rw [mode]; rfl))
  case h_7 taken mode =>
    -- the end of the text opens a node, which then stays open
    obtain ⟨opened, found, ended⟩ := exists_ok_of_bind h
    obtain ⟨none, -⟩ := finishBlank_eq_ok ended
    unfold openNode at found
    split at found
    all_goals cases found
    cases none
  all_goals cases h

/-! ## Trees that have been finished before -/

/-- A machine is in the same state as another, but for its position and for some trees that it has
finished before all others. -/
structure Follows (older : List Tree) (s u : State) : Prop where
  frames : u.frames = s.frames
  roots : u.roots = s.roots ++ older
  mode : u.mode = s.mode

section Follows

variable {older : List Tree} {u : State}

theorem Follows.advance (h : Follows older s u) (c : Char) :
    Follows older (s.advance c) (u.advance c) :=
  ⟨h.frames, h.roots, h.mode⟩

theorem Follows.enter (h : Follows older s u) (mode : Mode) :
    Follows older (s.enter mode) (u.enter mode) :=
  ⟨h.frames, h.roots, rfl⟩

theorem Follows.add (h : Follows older s u) (t : Tree) : Follows older (s.add t) (u.add t) := by
  unfold State.add
  rw [h.frames]
  cases frames : s.frames with
  | nil =>
    refine ⟨rfl, ?_, rfl⟩
    simp only [h.roots, List.cons_append]
  | cons f outer => exact ⟨rfl, h.roots, rfl⟩

theorem Follows.close (h : Follows older s u) : Follows older s.close u.close := by
  unfold State.close
  rw [h.frames]
  cases s.frames with
  | nil => exact h
  | cons f outer =>
    apply Follows.add
    exact ⟨rfl, h.roots, h.mode⟩

/-- What the one machine comes to the other comes to as well. -/
def FollowsTo (older : List Tree) (x y : Except SyntaxError State) : Prop :=
  ∀ s', x = .ok s' → ∃ u', y = .ok u' ∧ Follows older s' u'

theorem Follows.ok (h : Follows older s u) : FollowsTo older (.ok s) (.ok u) := by
  intro s' same
  cases same
  exact ⟨u, rfl, h⟩

theorem followsTo_fail (fault : SyntaxFault) (y : Except SyntaxError State) :
    FollowsTo older (s.fail fault) y := by
  intro s' same
  cases same

theorem FollowsTo.bind {x y : Except SyntaxError State} (h : FollowsTo older x y)
    {next : State → Except SyntaxError State}
    (each : ∀ {s u}, Follows older s u → FollowsTo older (next s) (next u)) :
    FollowsTo older (x >>= next) (y >>= next) := by
  intro s' ran
  obtain ⟨between, first, second⟩ := exists_ok_of_bind ran
  obtain ⟨u', same, follows⟩ := h between first
  rw [same]
  exact each follows s' second

theorem Follows.openNode (h : Follows older s u) (taken : List Char) :
    FollowsTo older (s.openNode taken) (u.openNode taken) := by
  unfold State.openNode
  rw [h.frames]
  split
  · apply Follows.ok
    exact ⟨rfl, h.roots, rfl⟩
  · exact followsTo_fail _ _

theorem Follows.stepBlank (h : Follows older s u) (c : Char) :
    FollowsTo older (s.stepBlank c) (u.stepBlank c) := by
  have advanced := h.advance c
  unfold State.stepBlank
  rw [h.frames]
  split_ifs
  · exact (advanced.enter _).ok
  · exact advanced.ok
  · exact (advanced.enter _).ok
  · exact followsTo_fail _ _
  · exact advanced.close.ok
  · exact (advanced.enter _).ok
  · exact (advanced.enter _).ok
  · exact (advanced.enter _).ok

theorem Follows.stepRegexp (h : Follows older s u) (taken : List Char) (escaped : Bool) (c : Char) :
    Follows older (s.stepRegexp taken escaped c) (u.stepRegexp taken escaped c) := by
  have advanced := h.advance c
  unfold State.stepRegexp
  split_ifs
  · exact advanced.enter _
  · exact advanced.add _
  · exact advanced.enter _

theorem Follows.stepString (h : Follows older s u) (taken : List Char) (escaped : Bool) (c : Char) :
    FollowsTo older (s.stepString taken escaped c) (u.stepString taken escaped c) := by
  have advanced := h.advance c
  unfold State.stepString
  split_ifs
  · exact (advanced.enter _).ok
  · split
    · exact (advanced.add _).ok
    · exact followsTo_fail _ _
  · exact (advanced.enter _).ok

/-- The machine looks neither at its position nor at the trees that it has finished. -/
theorem Follows.step (h : Follows older s u) (c : Char) :
    FollowsTo older (s.step c) (u.step c) := by
  have advanced := h.advance c
  have opened (taken : List Char) : FollowsTo older (do (← s.openNode taken).stepBlank c)
      (do (← u.openNode taken).stepBlank c) :=
    (h.openNode taken).bind fun follows => follows.stepBlank c
  unfold State.step
  rw [h.mode]
  split
  case h_1 => exact h.stepBlank c
  case h_2 =>
    apply Follows.ok
    split
    · exact advanced.enter _
    · exact advanced
  case h_3 =>
    split_ifs
    · exact (advanced.enter _).ok
    · exact advanced.ok
    · exact followsTo_fail _ _
    · exact opened []
    · exact (advanced.enter _).ok
  case h_4 taken _ =>
    split_ifs
    · exact opened taken
    · exact (advanced.enter _).ok
  case h_5 =>
    split_ifs
    · exact (h.add _).stepBlank c
    · exact (advanced.enter _).ok
  case h_6 =>
    split_ifs
    · exact (h.add _).stepBlank c
    · exact (h.stepRegexp _ _ c).ok
  case h_7 => exact (h.stepRegexp _ _ c).ok
  case h_8 => exact h.stepString _ _ c

theorem Follows.run (h : Follows older s u) (cs : List Char) :
    FollowsTo older (cs.foldlM State.step s) (cs.foldlM State.step u) := by
  induction cs generalizing s u with
  | nil => exact h.ok
  | cons c cs ih =>
    rw [List.foldlM_cons, List.foldlM_cons]
    exact (h.step c).bind ih

end Follows

/-- A line break behind a text that ends well leads back to where the machine started, but for the
trees that it has finished. -/
theorem follows_newline (outside : s.frames = [])
    (mode : s.mode = .blank ∨ s.mode = .comment false) :
    ∃ u, s.step '\n' = .ok u ∧ Follows s.roots {} u := by
  rcases mode with mode | mode
  · refine ⟨s.advance '\n', ?_, outside, rfl, mode⟩
    rw [step, mode]
    rfl
  · refine ⟨(s.advance '\n').enter .blank, ?_, outside, rfl, rfl⟩
    rw [step, mode]
    rfl

end State

end Reader

/-! ## The trees of a text -/

namespace Tree

open Item Reader

/-- The tree that the trees of a text make up: a single one itself, others as a block. -/
def bundle : List Tree → Tree
  | [t] => t
  | ts => .known .block 0 ts

theorem result_eq_bundle (s : State) : s.result = bundle s.roots.reverse := by
  unfold State.result
  rcases s.roots with _ | ⟨t, _ | ⟨u, ts⟩⟩
  · rfl
  · rfl
  · -- at least two trees have at least two trees in the opposite order
    have several : bundle (t :: u :: ts).reverse = .known .block 0 (t :: u :: ts).reverse := by
      unfold bundle
      split
      next single =>
        have length := congrArg List.length single
        simp at length
      next => rfl
    exact several.symm

/-- Reading a text gives the trees that the machine has finished. -/
theorem read_eq_ok {cs : List Char} {t : Tree} (h : read cs = .ok t) :
    ∃ s : State, cs.foldlM State.step {} = .ok s ∧ s.finish = .ok t ∧ s.frames = [] ∧
      (s.mode = .blank ∨ s.mode = .comment false) ∧ t = bundle s.roots.reverse := by
  obtain ⟨s, ran, finished⟩ := exists_ok_of_bind h
  have nested : s.Nested := State.nested_run (State.nested_of_mode rfl) ran
  obtain ⟨outside, result, mode⟩ := State.finish_eq_ok nested finished
  exact ⟨s, ran, finished, outside, mode, result.trans (result_eq_bundle s)⟩

/-- A text behind a line break is read like a text of its own: the trees of both texts are those of
the first, followed by those of the second. -/
theorem read_append_newline {cs cs' : List Char} {t t' : Tree} (first : read cs = .ok t)
    (second : read cs' = .ok t') :
    ∃ ts ts', t = bundle ts ∧ t' = bundle ts' ∧
      read (cs ++ '\n' :: cs') = .ok (bundle (ts ++ ts')) := by
  obtain ⟨s, ran, -, outside, mode, rfl⟩ := read_eq_ok first
  obtain ⟨s', ran', finished, outside', mode', rfl⟩ := read_eq_ok second
  obtain ⟨u, stepped, fresh⟩ := State.follows_newline outside mode
  obtain ⟨u', again, follows⟩ := fresh.run cs' s' ran'
  refine ⟨s.roots.reverse, s'.roots.reverse, rfl, rfl, ?_⟩
  have whole : (cs ++ '\n' :: cs').foldlM State.step {} = .ok u' := by
    have later : ('\n' :: cs').foldlM State.step s = .ok u' := by
      rw [List.foldlM_cons, stepped]
      exact again
    rw [List.foldlM_append, ran]
    exact later
  have ended : u'.finish = .ok u'.result := by
    have blank : u'.finishBlank = .ok u'.result := by
      rw [State.finishBlank, follows.frames, outside']
    rw [State.finish, follows.mode]
    rcases mode' with mode' | mode'
    · rw [mode']
      exact blank
    · rw [mode']
      exact blank
  rw [read, whole, ← List.reverse_append, ← follows.roots, ← result_eq_bundle]
  exact ended

/-! ## Their examination -/

theorem malformed?_bundle (ts : List Tree) :
    (bundle ts).malformed? = none ↔ ∀ t ∈ ts, t.malformed? = none := by
  unfold bundle
  split
  · simp
  · rw [malformed?_step]
    exact and_iff_right rfl

theorem faultAmong?_outline_bundle (ts : List Tree) :
    faultAmong? (bundle ts).outline = none ↔ ∀ t ∈ ts, faultAmong? t.outline = none := by
  unfold bundle
  split
  · simp
  · rw [outline_block, faultAmong?_append, faultAmong?_notes, Option.none_or, faultAmong?_flatMap]

theorem reportedAll_outline_bundle (settings : Settings) (around : Chain) (ts : List Tree) :
    reportedAll settings around (bundle ts).outline
      = ts.flatMap fun t => reportedAll settings around t.outline := by
  unfold bundle
  split
  · simp
  · rw [outline_block, reportedAll_append, reportedAll_notes, reportedAll_flatMap, List.nil_append]

/-- The trees of a text are examined one after the other, each by itself. -/
theorem examine_bundle_eq_ok_iff {settings : Settings} {source : Text} {ts : List Tree}
    {ws : List Warning} :
    (bundle ts).examine settings source = .ok ws ↔
      (∀ t ∈ ts, t.malformed? = none) ∧ (∀ t ∈ ts, faultAmong? t.outline = none) ∧
        ws = (ts.flatMap fun t => reportedAll settings [Scope.root] t.outline).map
          (Warning.withSource source) := by
  rw [examine_eq_ok_iff, malformed?_bundle, faultAmong?_outline_bundle, reportedAll_outline_bundle]

/-- Texts compose: if two texts can be read and examined, so can the two with a line break between
them, and the warnings are those about the first text, followed by those about the second. -/
theorem examine_append_newline (settings : Settings) (source source₁ source₂ : Text)
    {text₁ text₂ : Text} {t₁ t₂ : Tree} {ws₁ ws₂ : List Warning}
    (read₁ : read text₁.sourceChars = .ok t₁) (read₂ : read text₂.sourceChars = .ok t₂)
    (examined₁ : t₁.examine settings source₁ = .ok ws₁)
    (examined₂ : t₂.examine settings source₂ = .ok ws₂) :
    ∃ t, read (text₁ ++ "\n" ++ text₂ : Text).sourceChars = .ok t ∧
      t.examine settings source = .ok ((ws₁ ++ ws₂).map (Warning.withSource source)) := by
  obtain ⟨ts₁, ts₂, rfl, rfl, both⟩ := read_append_newline read₁ read₂
  obtain ⟨proper₁, sound₁, rfl⟩ := examine_bundle_eq_ok_iff.1 examined₁
  obtain ⟨proper₂, sound₂, rfl⟩ := examine_bundle_eq_ok_iff.1 examined₂
  refine ⟨bundle (ts₁ ++ ts₂), ?_, examine_bundle_eq_ok_iff.2 ⟨?_, ?_, ?_⟩⟩
  · have chars : (text₁ ++ "\n" ++ text₂ : Text).sourceChars
        = text₁.sourceChars ++ '\n' :: text₂.sourceChars := by
      rw [List.append_assoc]
      exact Text.sourceChars_append_newline text₁ text₂
    rw [chars]
    exact both
  · exact List.forall_mem_append.2 ⟨proper₁, proper₂⟩
  · exact List.forall_mem_append.2 ⟨sound₁, sound₂⟩
  · rw [List.flatMap_append, List.map_append, List.map_append, List.map_map, List.map_map]
    rfl

end Tree

/-- A module, and a comment that ends with the text. -/
def pileText : Text := "(module Pile (defn top (ivar @a))) ;x"

/-- The module. -/
def pileModule : Tree :=
  .known .moduleDef 0 [.atom (.sym "Pile"),
    .known .defn 0 [.atom (.sym "top"), .known .ivar 0 [.atom (.sym "@a")]]]

/-- A class. -/
def heapText : Text := "(class Heap nil (defn top (ivar @b)))"

/-- The class. -/
def heapClass : Tree :=
  .known .classDef 0 [.atom (.sym "Heap"), .atom .nil,
    .known .defn 0 [.atom (.sym "top"), .known .ivar 0 [.atom (.sym "@b")]]]

set_option maxRecDepth 4000 in
/-- The line break ends the comment of the first text, so the second text is not part of it. -/
theorem pileText_append_heapText :
    ∃ ws₁ ws₂, Tree.read pileText.sourceChars = .ok pileModule ∧
      Tree.read heapText.sourceChars = .ok heapClass ∧ pileModule.examine {} "pile" = .ok ws₁ ∧
      heapClass.examine {} "heap" = .ok ws₂ ∧ ws₁.map Warning.context = ["Pile"] ∧
      ws₂.map Warning.context = ["Heap"] ∧
      ∃ t, Tree.read (pileText ++ "\n" ++ heapText : Text).sourceChars = .ok t ∧
        t.examine {} "both" = .ok ((ws₁ ++ ws₂).map (Warning.withSource "both")) := by
  have read₁ : Tree.read pileText.sourceChars = .ok pileModule := by
    rw [pileText, Text.ofString, Text.sourceChars_ofChars]
    rfl
  have read₂ : Tree.read heapText.sourceChars = .ok heapClass := by
    rw [heapText, Text.ofString, Text.sourceChars_ofChars]
    rfl
  have run₁ : pileModule.examine {} "pile"
      = .ok (warningsAbout {} "pile" pileModule.walk.completed) := rfl
  have run₂ : heapClass.examine {} "heap"
      = .ok (warningsAbout {} "heap" heapClass.walk.completed) := rfl
  refine ⟨_, _, read₁, read₂, run₁, run₂, ?_, ?_,
    Tree.examine_append_newline {} "both" "pile" "heap" read₁ read₂ run₁ run₂⟩
  all_goals
    simp only [warningsAbout, Chain.warnings, resolve_default]
    rfl

end CodeSmell
