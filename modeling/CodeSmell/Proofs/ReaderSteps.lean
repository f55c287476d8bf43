import CodeSmell.Tree.Reader
import Mathlib.Tactic.SplitIfs

/-!
# Steps of the reader

A character that the machine takes stands inside of something that is being read, and goes on with
it or finishes it (`Reader.State.Within`). Or else it stands between two elements, perhaps because it
ends the word or the head in front of it (`Reader.State.Ended`), and starts something new
(`Reader.State.Between`). There are no other steps (`Reader.State.step_cases`), so what the machine
keeps to is shown for these.
-/

set_option autoImplicit false

namespace CodeSmell

namespace Reader

theorem exists_ok_of_bind {ε α β : Type} {x : Except ε α} {f : α → Except ε β} {b : β}
    (h : x >>= f = .ok b) : ∃ a, x = .ok a ∧ f a = .ok b := by
  cases x with
  | error e => cases h
  | ok a => exact ⟨a, rfl, h⟩

namespace State

variable {s s' : State} {c : Char}

theorem mode_add (s : State) (t : Tree) : (s.add t).mode = .blank := by
  unfold add
  split <;> rfl

theorem mode_close (inside : s.frames ≠ []) : s.close.mode = .blank := by
  unfold close
  split
  · exact mode_add _ _
  next none => exact absurd none inside

theorem mode_openNode {taken : List Char} (opened : s.openNode taken = .ok s') :
    s'.mode = .blank := by
  unfold openNode at opened
  split at opened
  · cases opened
    rfl
  · cases opened

/-! ## Between two elements -/

/-- What a character does between two elements. Outside of all nodes only a node can start. -/
inductive Between (s : State) (c : Char) : State → Prop
  | comment (is : c = ';') : Between s c ((s.advance c).enter (.comment false))
  | blank (is : isBlank c = true) : Between s c (s.advance c)
  | opening (is : c = '(') : Between s c ((s.advance c).enter .opened)
  | closing (is : c = ')') (inside : s.frames ≠ []) : Between s c (s.advance c).close
  | quote (is : c = '"') (inside : s.frames ≠ []) :
    Between s c ((s.advance c).enter (.string [] false))
  | slash (is : c = '/') (inside : s.frames ≠ []) : Between s c ((s.advance c).enter .slash)
  | word (plain : isDelimiter c = false) (other : c ≠ '/') (inside : s.frames ≠ []) :
    Between s c ((s.advance c).enter (.word [c]))

theorem between_of_stepBlank (stepped : s.stepBlank c = .ok s') : s.Between c s' := by
  unfold stepBlank at stepped
  split_ifs at stepped with comment blank opening outside closing quote slash
  all_goals cases stepped
  · exact .comment comment
  · exact .blank blank
  · exact .opening opening
  all_goals have inside : s.frames ≠ [] := fun none => outside (List.isEmpty_iff.2 none)
  · exact .closing closing inside
  · exact .quote quote inside
  · exact .slash slash inside
  · refine .word ?_ slash inside
    simp [isDelimiter, blank, opening, closing, quote, comment]

/-! ## Behind an element -/

/-- How the machine comes to be between two elements in front of a character: it was there, or the
character ends a word or a head. A double quote ends a head that has not begun. -/
inductive Ended (s : State) (c : Char) : State → Prop
  | nothing (mode : s.mode = .blank) : Ended s c s
  | word {taken : List Char} (mode : s.mode = .word taken) (ends : isDelimiter c = true) :
    Ended s c (s.add (.atom (Atom.ofWord taken.reverse)))
  | slash (mode : s.mode = .slash) (ends : isBlank c = true ∨ c = ')') :
    Ended s c (s.add (.atom (Atom.ofWord ['/'])))
  | noHead {s' : State} (mode : s.mode = .opened) (quote : c = '"')
    (opened : s.openNode [] = .ok s') : Ended s c s'
  | head {taken : List Char} {s' : State} (mode : s.mode = .head taken)
    (ends : isDelimiter c = true) (opened : s.openNode taken = .ok s') : Ended s c s'

theorem Ended.mode_eq (ended : s.Ended c s') : s'.mode = .blank := by
  cases ended with
  | nothing mode => exact mode
  | word => exact mode_add _ _
  | slash => exact mode_add _ _
  | noHead _ _ opened => exact mode_openNode opened
  | head _ _ opened => exact mode_openNode opened

/-! ## Inside of an element -/

/-- Characters of a regular expression have been taken. Behind its first slash there are none. -/
inductive InRegexp (s : State) (c : Char) : List Char → Bool → Prop
  | first (mode : s.mode = .slash) (starts : isBlank c = false ∧ c ≠ ')') : InRegexp s c [] false
  | later {taken : List Char} {escaped : Bool} (mode : s.mode = .regexp taken escaped) :
    InRegexp s c taken escaped

/-- What a character does inside of a comment, a head, a word, a regular expression or a string
literal. A backslash hides the character behind it. -/
inductive Within (s : State) (c : Char) : State → Prop
  | comment {beforeTag : Bool} (mode : s.mode = .comment beforeTag) (other : c ≠ '\n') :
    Within s c (s.advance c)
  | lineEnd {beforeTag : Bool} (mode : s.mode = .comment beforeTag) (is : c = '\n') :
    Within s c ((s.advance c).enter (if beforeTag then .opened else .blank))
  | commentBeforeTag (mode : s.mode = .opened) (is : c = ';') :
    Within s c ((s.advance c).enter (.comment true))
  | blankBeforeTag (mode : s.mode = .opened) (other : c ≠ ';') (is : isBlank c = true) :
    Within s c (s.advance c)
  | headStart (mode : s.mode = .opened) (plain : isDelimiter c = false) :
    Within s c ((s.advance c).enter (.head [c]))
  | head {taken : List Char} (mode : s.mode = .head taken) (plain : isDelimiter c = false) :
    Within s c ((s.advance c).enter (.head (c :: taken)))
  | word {taken : List Char} (mode : s.mode = .word taken) (plain : isDelimiter c = false) :
    Within s c ((s.advance c).enter (.word (c :: taken)))
  | hiddenInRegexp {taken : List Char} (reads : s.InRegexp c taken true) :
    Within s c ((s.advance c).enter (.regexp (c :: taken) false))
  | regexp {taken : List Char} (reads : s.InRegexp c taken false) (other : c ≠ '/') :
    Within s c ((s.advance c).enter (.regexp (c :: taken) (c == '\\')))
  | regexpEnd {taken : List Char} (reads : s.InRegexp c taken false) (is : c = '/') :
    Within s c ((s.advance c).add (.atom (.re (String.ofList taken.reverse))))
  | hiddenInString {taken : List Char} (mode : s.mode = .string taken true) :
    Within s c ((s.advance c).enter (.string (c :: taken) false))
  | string {taken : List Char} (mode : s.mode = .string taken false) (other : c ≠ '"') :
    Within s c ((s.advance c).enter (.string (c :: taken) (c == '\\')))
  | stringEnd {taken : List Char} {value : Text} (mode : s.mode = .string taken false)
    (is : c = '"') (decoded : Quoted.decode taken.reverse = some value) :
    Within s c ((s.advance c).add (.atom (.str value)))

theorem within_stepRegexp {taken : List Char} {escaped : Bool}
    (reads : s.InRegexp c taken escaped) : s.Within c (s.stepRegexp taken escaped c) := by
  unfold stepRegexp
  cases escaped with
  | true => exact .hiddenInRegexp reads
  | false =>
    rw [if_neg Bool.false_ne_true]
    split
    next is => exact .regexpEnd reads is
    next other => exact .regexp reads other

theorem within_of_stepString {taken : List Char} {escaped : Bool}
    (mode : s.mode = .string taken escaped) (stepped : s.stepString taken escaped c = .ok s') :
    s.Within c s' := by
  unfold stepString at stepped
  cases escaped with
  | true =>
    cases stepped
    exact .hiddenInString mode
  | false =>
    rw [if_neg Bool.false_ne_true] at stepped
    split at stepped
    next is =>
      split at stepped
      next value decoded =>
        cases stepped
        exact .stringEnd mode is decoded
      next => cases stepped
    next other =>
      cases stepped
      exact .string mode other

/-! ## All steps -/

theorem exists_ended_of_openNode {taken : List Char}
    (ended : ∀ {opened}, s.openNode taken = .ok opened → s.Ended c opened)
    (stepped : (do (← s.openNode taken).stepBlank c) = .ok s') :
    ∃ between, s.Ended c between ∧ between.Between c s' := by
  obtain ⟨opened, found, stepped⟩ := exists_ok_of_bind stepped
  exact ⟨opened, ended found, between_of_stepBlank stepped⟩

/-- A character that is taken stands inside of what is being read, or starts something behind it. -/
theorem step_cases (stepped : s.step c = .ok s') :
    s.Within c s' ∨ ∃ between, s.Ended c between ∧ between.Between c s' := by
  unfold step at stepped
  split at stepped
  next mode => exact .inr ⟨s, .nothing mode, between_of_stepBlank stepped⟩
  next beforeTag mode =>
    left
    cases stepped
    split
    next is => exact .lineEnd mode is
    next other => exact .comment mode other
  next mode =>
    split_ifs at stepped with comment blank node quote
    · cases stepped
      exact .inl (.commentBeforeTag mode comment)
    · cases stepped
      exact .inl (.blankBeforeTag mode comment blank)
    · cases stepped
    · exact .inr (exists_ended_of_openNode (.noHead mode quote) stepped)
    · cases stepped
      rw [not_or] at node
      refine .inl (.headStart mode ?_)
      simp [isDelimiter, comment, blank, node, quote]
  next taken mode =>
    split_ifs at stepped with ends
    · exact .inr (exists_ended_of_openNode (.head mode ends) stepped)
    · cases stepped
      exact .inl (.head mode (Bool.eq_false_iff.2 ends))
  next taken mode =>
    split_ifs at stepped with ends
    · exact .inr ⟨_, .word mode ends, between_of_stepBlank stepped⟩
    · cases stepped
      exact .inl (.word mode (Bool.eq_false_iff.2 ends))
  next mode =>
    split_ifs at stepped with ends
    · exact .inr ⟨_, .slash mode ends, between_of_stepBlank stepped⟩
    · cases stepped
      rw [not_or, Bool.not_eq_true] at ends
      exact .inl (within_stepRegexp (.first mode ends))
  next taken escaped mode =>
    cases stepped
    exact .inl (within_stepRegexp (.later mode))
  next taken escaped mode => exact .inl (within_of_stepString mode stepped)

end State

end Reader

end CodeSmell
