import CodeSmell.Proofs.Parts
import CodeSmell.Proofs.Quotation
import CodeSmell.Proofs.ReaderSteps

/-!
# Atoms that are read

The atoms of a tree that has been read are what their written form denotes: a word, a string literal
or a regular expression between slashes (`Atom.Writable`). The machine keeps to such atoms with each
character (`Reader.State.sound_step`), so every tree that it returns has no others
(`Tree.atomsWritable_of_read`).
-/

set_option autoImplicit false

namespace CodeSmell

open Quoted (Body)

/-- Characters that are read as one word: there is at least one, none ends a word, and a slash comes
first only if it stands alone. -/
structure IsWord (word : List Char) : Prop where
  nonempty : word ≠ []
  plain : ∀ c ∈ word, Reader.isDelimiter c = false
  slash : word.head? = some '/' → word = ['/']

/-- Characters that are read as one regular expression when they stand between slashes: each slash
among them is escaped, and the first one does not make the slash before it a word. -/
structure IsPattern (source : List Char) : Prop where
  body : Body '/' source
  start : ∀ c ∈ source.head?, isBlank c = false ∧ c ≠ ')'

/-- An atom that has a written form. -/
inductive Atom.Writable : Atom → Prop where
  | word {word : List Char} (is : IsWord word) : Writable (Atom.ofWord word)
  | string (value : Text) : Writable (.str value)
  | regexp {source : List Char} (is : IsPattern source) : Writable (.re (String.ofList source))

/-- All atoms of a tree have a written form. -/
def Tree.AtomsWritable (t : Tree) : Prop := ∀ a, t.HasPart (.atom a) → a.Writable

theorem Tree.atomsWritable_atom {a : Atom} (h : a.Writable) : (Tree.atom a).AtomsWritable := by
  intro b part
  cases Tree.hasPart_atom_iff.1 part
  exact h

theorem Tree.atomsWritable_node {tag : Tag} {line : Int} {cs : List Tree}
    (h : ∀ c ∈ cs, c.AtomsWritable) : (Tree.node tag line cs).AtomsWritable := by
  intro a part
  rcases Tree.hasPart_node_iff.1 part with same | ⟨c, mem, part⟩
  · cases same
  · exact h c mem a part

namespace Reader

/-- What the characters taken so far can still become. -/
def Mode.Sound : Mode → Prop
  | .word taken =>
    taken ≠ [] ∧ (∀ c ∈ taken, isDelimiter c = false) ∧ taken.getLast? ≠ some '/'
  | .regexp taken escaped =>
    (∃ body, Body '/' body ∧ taken.reverse = body ++ if escaped then ['\\'] else []) ∧
      ∃ first, taken.getLast? = some first ∧ isBlank first = false ∧ first ≠ ')'
  | _ => True

/-- The atoms of all that the machine has finished have a written form, and so will the one that it
is reading. -/
structure State.Sound (s : State) : Prop where
  frames : ∀ f ∈ s.frames, ∀ t ∈ f.children, t.AtomsWritable
  roots : ∀ t ∈ s.roots, t.AtomsWritable
  mode : s.mode.Sound

namespace State

theorem sound_advance {s : State} (h : s.Sound) (c : Char) : (s.advance c).Sound :=
  ⟨h.frames, h.roots, h.mode⟩

theorem sound_enter {s : State} (h : s.Sound) {mode : Mode} (fits : mode.Sound) :
    (s.enter mode).Sound :=
  ⟨h.frames, h.roots, fits⟩

theorem sound_add {s : State} (h : s.Sound) {t : Tree} (fits : t.AtomsWritable) :
    (s.add t).Sound := by
  unfold add
  split
  next f outer frames =>
    obtain ⟨inner, rest⟩ := List.forall_mem_cons.1 (frames ▸ h.frames)
    exact ⟨List.forall_mem_cons.2 ⟨List.forall_mem_cons.2 ⟨fits, inner⟩, rest⟩, h.roots, trivial⟩
  next => exact ⟨h.frames, List.forall_mem_cons.2 ⟨fits, h.roots⟩, trivial⟩

theorem sound_close {s : State} (h : s.Sound) : s.close.Sound := by
  rw [close]
  cases frames : s.frames with
  | nil => exact h
  | cons f outer =>
    obtain ⟨inner, rest⟩ := List.forall_mem_cons.1 (frames ▸ h.frames)
    have left : { s with frames := outer }.Sound := ⟨rest, h.roots, h.mode⟩
    refine sound_add left (Tree.atomsWritable_node fun t mem => ?_)
    exact inner t (List.mem_reverse.1 mem)

theorem sound_openNode {s s' : State} (h : s.Sound) {taken : List Char}
    (opened : s.openNode taken = .ok s') : s'.Sound := by
  rw [openNode] at opened
  split at opened
  next f found =>
    cases opened
    have empty : f.children = [] := by
      unfold Frame.ofHead? at found
      split at found
      · obtain ⟨_, -, rfl⟩ := Option.map_eq_some_iff.1 found
        rfl
      · cases found
        rfl
    refine ⟨List.forall_mem_cons.2 ⟨?_, h.frames⟩, h.roots, trivial⟩
    intro t mem
    rw [empty] at mem
    cases mem
  next => cases opened

variable {s s' : State} {c : Char}

theorem Between.sound (h : s.Sound) (between : s.Between c s') : s'.Sound := by
  have advanced := sound_advance h c
  cases between with
  | comment | opening | quote | slash => exact sound_enter advanced trivial
  | blank => exact advanced
  | closing => exact sound_close advanced
  | word plain other =>
    refine sound_enter advanced ⟨List.cons_ne_nil c [], List.forall_mem_singleton.2 plain, ?_⟩
    simpa using other

theorem Ended.sound (h : s.Sound) (ended : s.Ended c s') : s'.Sound := by
  have fits := h.mode
  cases ended with
  | nothing => exact h
  | @word taken mode =>
    obtain ⟨nonempty, plain, last⟩ : (Mode.word taken).Sound := mode ▸ fits
    refine sound_add h (Tree.atomsWritable_atom (.word ⟨?_, ?_, ?_⟩))
    · exact mt List.reverse_eq_nil_iff.1 nonempty
    · exact fun x mem => plain x (List.mem_reverse.1 mem)
    · intro slash
      rw [List.head?_reverse] at slash
      exact absurd slash last
  | slash =>
    refine sound_add h (Tree.atomsWritable_atom (.word ⟨?_, ?_, ?_⟩))
    · exact List.cons_ne_nil _ _
    · exact List.forall_mem_singleton.2 rfl
    · exact fun _ => rfl
  | noHead _ _ opened => exact sound_openNode h opened
  | head _ _ opened => exact sound_openNode h opened

/-- A regular expression has no bare slash up to the next character, and does not start with one
that would make the slash before it a word. -/
theorem InRegexp.sound (h : s.Sound) {taken : List Char} {escaped : Bool}
    (reads : s.InRegexp c taken escaped) :
    (∃ body, Body '/' body ∧ taken.reverse = body ++ if escaped then ['\\'] else []) ∧
      ∃ first, (c :: taken).getLast? = some first ∧ isBlank first = false ∧ first ≠ ')' := by
  have fits := h.mode
  cases reads with
  | first _ starts => exact ⟨⟨[], .nil, rfl⟩, c, rfl, starts⟩
  | later mode =>
    obtain ⟨body, first, last, starts⟩ : (Mode.regexp taken escaped).Sound := mode ▸ fits
    refine ⟨body, first, ?_, starts⟩
    rw [List.getLast?_cons, last, Option.getD_some]

theorem Within.sound (h : s.Sound) (within : s.Within c s') : s'.Sound := by
  have advanced := sound_advance h c
  have fits := h.mode
  cases within with
  | comment | blankBeforeTag => exact advanced
  | commentBeforeTag | headStart | head | hiddenInString | string =>
    exact sound_enter advanced trivial
  | @lineEnd beforeTag =>
    refine sound_enter advanced ?_
    cases beforeTag <;> trivial
  | @word taken mode plain =>
    obtain ⟨nonempty, all, last⟩ : (Mode.word taken).Sound := mode ▸ fits
    refine sound_enter advanced ⟨List.cons_ne_nil c taken, List.forall_mem_cons.2 ⟨plain, all⟩, ?_⟩
    rw [List.getLast?_cons_of_ne_nil nonempty]
    exact last
  | hiddenInRegexp reads =>
    obtain ⟨⟨body, is, eq⟩, first⟩ := reads.sound h
    refine sound_enter advanced ⟨⟨body ++ ['\\', c], is.append (.escaped .nil), ?_⟩, first⟩
    simp [eq]
  | regexp reads other =>
    obtain ⟨⟨body, is, eq⟩, first⟩ := reads.sound h
    rw [if_neg Bool.false_ne_true, List.append_nil] at eq
    refine sound_enter advanced ⟨?_, first⟩
    -- a backslash waits for the character that it hides
    by_cases backslash : c = '\\'
    · exact ⟨body, is, by simp [eq, backslash]⟩
    · exact ⟨body ++ [c], is.append (.plain other backslash .nil), by simp [eq, backslash]⟩
  | regexpEnd reads =>
    obtain ⟨⟨body, is, eq⟩, first, found, starts⟩ := reads.sound h
    rw [if_neg Bool.false_ne_true, List.append_nil] at eq
    refine sound_add advanced (Tree.atomsWritable_atom (.regexp ⟨eq ▸ is, ?_⟩))
    rw [List.head?_reverse]
    intro x last
    rw [List.getLast?_cons, Option.mem_def.1 last, Option.getD_some] at found
    exact Option.some.inj found ▸ starts
  | stringEnd => exact sound_add advanced (Tree.atomsWritable_atom (.string _))

/-- One more character keeps the machine sound. -/
theorem sound_step (h : s.Sound) (stepped : s.step c = .ok s') : s'.Sound := by
  rcases step_cases stepped with within | ⟨between, ended, starts⟩
  · exact within.sound h
  · exact starts.sound (ended.sound h)

theorem sound_steps {source : List Char} :
    ∀ {s s' : State}, s.Sound → source.foldlM step s = .ok s' → s'.Sound := by
  induction source with
  | nil =>
    intro s s' h run
    cases run
    exact h
  | cons c source ih =>
    intro s s' h run
    obtain ⟨next, stepped, run⟩ := exists_ok_of_bind run
    exact ih (sound_step h stepped) run

theorem atomsWritable_result {s : State} (h : s.Sound) : s.result.AtomsWritable := by
  unfold result
  split
  next t roots => exact h.roots t (roots ▸ List.mem_singleton_self t)
  next => exact Tree.atomsWritable_node fun t mem => h.roots t (List.mem_reverse.1 mem)

theorem atomsWritable_finishBlank {s : State} (h : s.Sound) {t : Tree}
    (finished : s.finishBlank = .ok t) : t.AtomsWritable := by
  unfold finishBlank at finished
  split at finished
  · cases finished
  · cases finished
    exact atomsWritable_result h

theorem atomsWritable_finish {s : State} (h : s.Sound) {t : Tree} (finished : s.finish = .ok t) :
    t.AtomsWritable := by
  unfold finish at finished
  split at finished
  case h_1 | h_2 | h_3 | h_4 => exact atomsWritable_finishBlank h finished
  case h_5 | h_6 | h_8 | h_9 => cases finished
  case h_7 =>
    obtain ⟨opened, eq, finished⟩ := exists_ok_of_bind finished
    exact atomsWritable_finishBlank (sound_openNode h eq) finished

end State

end Reader

/-- The atoms of a tree that has been read have a written form. -/
theorem Tree.atomsWritable_of_read {source : List Char} {t : Tree}
    (read : Tree.read source = .ok t) : t.AtomsWritable := by
  obtain ⟨s, run, finished⟩ := Reader.exists_ok_of_bind read
  have start : Reader.State.Sound {} := by
    refine ⟨?_, ?_, trivial⟩
    · intro f mem
      cases mem
    · intro t mem
      cases mem
  exact Reader.State.atomsWritable_finish (Reader.State.sound_steps start run) finished

end CodeSmell
