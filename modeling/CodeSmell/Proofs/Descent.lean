import CodeSmell.Proofs.Cursor
import CodeSmell.Proofs.RoundTrip

/-!
# Reading by descent

Trees can be read by functions that call one another as the elements of a text are nested, all with
one cursor: `Descent.skipSpace`, `Descent.word`, `Descent.quoted`, `Descent.regexp`,
`Descent.atom`, `Descent.node` and `Descent.read`. Such a reading answers every text as the machine
does. It looks only at characters that are there, all its loops move ahead, and it knows the line
and the column of each place it comes to (`Descent.read_exact`).

The two are compared by what the machine makes of the rest of the text: `Descent.Awaits` says that a
state of the machine, behind the characters that were taken, decides about the text as it was
decided at the start. Each function is described by the state in which it finds the machine and the
state in which it leaves it.
-/

set_option autoImplicit false

namespace CodeSmell

open Reader

/-! ## The machine on the rest of a text -/

namespace Reader.State

/-- The machine at another place. -/
def moved (s : State) (p : Position) : State := { s with position := p }

/-- The machine within one more node. -/
def within (s : State) (f : Frame) : State := { s with frames := f :: s.frames, mode := .blank }

/-- What the machine makes of the rest of a text. -/
def readRest (s : State) (rest : List Char) : Except SyntaxError Tree := do
  (← rest.foldlM step s).finish

theorem readRest_cons (s : State) (ch : Char) (rest : List Char) :
    s.readRest (ch :: rest) = s.step ch >>= fun s' => s'.readRest rest := by
  rw [readRest, List.foldlM_cons, bind_assoc]
  rfl

theorem moved_close_within (s : State) (f : Frame) (p : Position) :
    ((s.within f).moved p).close = (s.add f.close).moved p := by
  obtain ⟨position, frames, roots, mode⟩ := s
  cases frames <;> rfl

end Reader.State

namespace Descent

/-! ## The reading -/

section Reading

variable (source : List Char)

/-- Takes a character if it is as asked for. -/
def takeTurn (p : Char → Bool) : Reading (Turn Unit Unit) := do
  if ← atEnd source then
    return .leave ()
  else
    let ch ← peek source
    if p ch then
      let _ ← next source
      return .again ()
    else
      return .leave ()

/-- Takes characters as long as they are as asked for. -/
def takeWhile (p : Char → Bool) : Reading Unit := loop source (fun _ => takeTurn source p) ()

/-- Takes a comment without the end of its line, or a blank. -/
def skipTurn : Reading (Turn Unit Unit) := do
  if ← atEnd source then
    return .leave ()
  else
    let ch ← peek source
    if ch = ';' then
      takeWhile source (· != '\n')
      return .again ()
    else if isBlank ch then
      let _ ← next source
      return .again ()
    else
      return .leave ()

/-- Takes blanks and comments. -/
def skipSpace : Reading Unit := loop source (fun _ => skipTurn source) ()

/-- Takes the characters of a word. -/
def word : Reading (List Char) := do
  let start ← index
  takeWhile source (!isDelimiter ·)
  let stop ← index
  return slice source start stop

/-- Takes a character of a literal, and the character behind it as well if it is a backslash. -/
def literalTurn (mark : Char) (fault : SyntaxFault) (chars : List Char) :
    Reading (Turn (List Char) (List Char)) := do
  if ← atEnd source then
    refuse fault
  else
    let ch ← next source
    if ch = '\\' then
      if ← atEnd source then
        return .again (ch :: chars)
      else
        let hidden ← next source
        return .again (hidden :: ch :: chars)
    else if ch = mark then
      return .leave chars.reverse
    else
      return .again (ch :: chars)

/-- Takes the characters of a literal, behind the mark that opens it, up to the one that closes
it. -/
def literal (mark : Char) (fault : SyntaxFault) : Reading (List Char) :=
  loop source (literalTurn source mark fault) []

/-- Takes a string literal. -/
def quoted : Reading Atom := do
  let _ ← next source
  let chars ← literal source '"' .unterminatedString
  match Quoted.decode chars with
  | some value => return .str value
  | none => refuse .badString

/-- Takes a regular expression. -/
def regexp : Reading Atom := do
  let _ ← next source
  let chars ← literal source '/' .unterminatedRegexp
  return .re (String.ofList chars)

/-- Whether a slash starts a regular expression, which the character behind it decides. -/
def startsRegexp : Reading Bool := do
  let ch ← peek source
  let i ← index
  if ch = '/' ∧ i + 1 < source.length then
    let ch' ← peekBehind source
    return !isBlank ch' && ch' != ')'
  else
    return false

/-- Takes an atom that is no string literal. -/
def atom : Reading Atom := do
  if ← startsRegexp source then
    regexp source
  else
    let chars ← word source
    return .ofWord chars

/-- Takes an opening parenthesis and the head of a node. -/
def head (inherited : Int) : Reading Frame := do
  let _ ← next source
  skipSpace source
  if ← atEnd source then
    refuse .missingTag
  else
    let ch ← peek source
    if ch = '(' ∨ ch = ')' then
      refuse .missingTag
    else
      let chars ← word source
      match Frame.ofHead? inherited chars.reverse with
      | some f => return f
      | none => refuse (.badLine (String.ofList chars))

/-- Takes a child of a node, or the parenthesis that closes it. -/
def childTurn (node : Int → Reading Tree) (f : Frame) : Reading (Turn Frame Tree) := do
  skipSpace source
  if ← atEnd source then
    refuse (.unterminatedNode f.tag.name)
  else
    let ch ← peek source
    if ch = ')' then
      let _ ← next source
      return .leave f.close
    else if ch = '(' then
      let t ← node f.line
      return .again (f.push t)
    else if ch = '"' then
      let a ← quoted source
      return .again (f.push (.atom a))
    else
      let a ← atom source
      return .again (f.push (.atom a))

/-- Takes a node in which nodes are nested no more deeply than a given depth. -/
def node : Nat → Int → Reading Tree
  | 0, _ => throw .tooDeep
  | depth + 1, inherited => do
    let f ← head source inherited
    loop source (childTurn source (node depth)) f

/-- Takes a tree of a text, or comes to the end of the text. -/
def rootTurn (roots : List Tree) : Reading (Turn (List Tree) Tree) := do
  skipSpace source
  if ← atEnd source then
    return .leave (State.result { roots })
  else
    let ch ← peek source
    if ch = '(' then
      let t ← node source source.length 0
      return .again (t :: roots)
    else
      refuse (.notATree ch)

/-- Takes the trees of a text. -/
def read : Reading Tree := loop source (rootTurn source) []

end Reading

/-! ## What the machine awaits -/

/-- The machine in a given state, behind the characters that were taken, decides about the whole
text. -/
def Awaits (source : List Char) (s : State) (taken rest : List Char) : Prop :=
  (s.moved (.behind taken)).readRest rest = Tree.read source

variable {source taken rest : List Char} {ch : Char} {c : Cursor} {s s' : State} {f : Frame}

theorem awaits_cons_iff (stepped : ∀ p, (s.moved p).step ch = .ok (s'.moved (p.after ch))) :
    Awaits source s taken (ch :: rest) ↔ Awaits source s' (taken ++ [ch]) rest := by
  unfold Awaits
  rw [State.readRest_cons, stepped, Position.behind_concat]
  rfl

theorem Awaits.next (h : Awaits source s taken (ch :: rest))
    (stepped : ∀ p, (s.moved p).step ch = .ok (s'.moved (p.after ch))) :
    Awaits source s' (taken ++ [ch]) rest :=
  (awaits_cons_iff stepped).1 h

/-- States that take the next character alike, and the end as well, decide alike. -/
theorem Awaits.congr (h : Awaits source s taken rest)
    (same : ∀ p ch, rest.head? = some ch → (s.moved p).step ch = (s'.moved p).step ch)
    (ended : rest = [] → ∀ p, (s.moved p).finish = (s'.moved p).finish) :
    Awaits source s' taken rest := by
  unfold Awaits at h ⊢
  rw [← h]
  cases rest with
  | nil => exact (ended rfl _).symm
  | cons ch rest => rw [State.readRest_cons, State.readRest_cons, same _ ch rfl]

theorem Awaits.refused {e : SyntaxError} (h : Awaits source s taken (ch :: rest))
    (stepped : (s.moved (.behind taken)).step ch = .error e) : Tree.read source = .error e := by
  unfold Awaits at h
  rw [← h, State.readRest_cons, stepped]
  rfl

theorem Awaits.ended (h : Awaits source s taken []) :
    Tree.read source = (s.moved (.behind taken)).finish :=
  Eq.symm h

/-- The cursor has moved ahead, to a place where the machine is in a given state. -/
def Ahead (source : List Char) (s : State) (rest : List Char) (c : Cursor) : Prop :=
  ∃ taken' rest', c.At source taken' rest' ∧ rest'.length < rest.length ∧
    Awaits source s taken' rest'

/-! ## Blanks and words -/

/-- What is kept by each character that is as asked for is kept by all of them. The cursor moves
ahead unless it stays where it was. -/
theorem ensures_takeWhile {p : Char → Bool} (inv : List Char → List Char → Prop)
    (each : ∀ taken ch rest, p ch = true → inv taken (ch :: rest) → inv (taken ++ [ch]) rest)
    (here : c.At source taken rest) (start : inv taken rest) :
    Ensures source (takeWhile source p) c fun _ c' => ∃ taken' rest', c'.At source taken' rest' ∧
      (rest' = rest ∨ rest'.length < rest.length) ∧ inv taken' rest' ∧
      ∀ ch, rest'.head? = some ch → p ch = false := by
  refine ensures_loop (fun _ taken' rest' =>
    (rest' = rest ∨ rest'.length < rest.length) ∧ inv taken' rest') ?_ here ⟨Or.inl rfl, start⟩
  intro _ taken' rest' c here ⟨ahead, kept⟩
  refine ensures_unlessAtEnd here ?_ ?_
  · rintro rfl
    exact ensures_pure ⟨taken', [], here, ahead, kept, nofun⟩
  · rintro ch rest' rfl
    refine .bind (ensures_peek here fun c here => ?_)
    refine ensures_ite (fun is => ?_) (fun other => ?_)
    · refine .bind (ensures_next here fun c here => ?_)
      have shorter : rest'.length < (ch :: rest').length := Nat.lt_succ_self _
      refine ensures_pure ⟨_, rest', here, shorter, Or.inr ?_, each _ _ _ is kept⟩
      rcases ahead with rfl | ahead
      · exact shorter
      · exact Nat.lt_trans shorter ahead
    · refine ensures_pure ⟨taken', _, here, ahead, kept, ?_⟩
      rintro _ ⟨⟩
      exact Bool.eq_false_iff.2 other

/-- The mode between two elements, or between an opening parenthesis and its tag. -/
def between (beforeTag : Bool) : Mode := if beforeTag then .opened else .blank

/-- A semicolon is taken as if it stood in the comment that it starts. -/
theorem Awaits.comment {beforeTag : Bool}
    (h : Awaits source (s.enter (between beforeTag)) taken (';' :: rest)) :
    Awaits source (s.enter (.comment beforeTag)) taken (';' :: rest) := by
  refine h.congr ?_ nofun
  rintro p _ ⟨⟩
  cases beforeTag <;> rfl

/-- The end of a comment is taken as if the comment did not stand before it. -/
theorem Awaits.uncomment {beforeTag : Bool}
    (h : Awaits source (s.enter (.comment beforeTag)) taken rest)
    (stops : ∀ ch, rest.head? = some ch → (ch != '\n') = false) :
    Awaits source (s.enter (between beforeTag)) taken rest := by
  refine h.congr ?_ ?_
  · intro p ch first
    obtain rfl : ch = '\n' := by simpa using stops ch first
    cases beforeTag <;> rfl
  · rintro rfl p
    cases beforeTag <;> rfl

theorem Awaits.blank {beforeTag : Bool} (is : isBlank ch = true)
    (h : Awaits source (s.enter (between beforeTag)) taken (ch :: rest)) :
    Awaits source (s.enter (between beforeTag)) (taken ++ [ch]) rest := by
  refine h.next fun p => ?_
  have other : ch ≠ ';' := ne_of_isBlank is rfl
  cases beforeTag with
  | false => exact (if_neg other).trans (if_pos is)
  | true => exact (if_neg other).trans (if_pos is)

/-- The text does not go on with a blank or a comment. -/
def StartsElement (rest : List Char) : Prop :=
  ∀ ch, rest.head? = some ch → ch ≠ ';' ∧ isBlank ch = false

/-- Blanks and comments leave the machine as it was. -/
theorem ensures_skipSpace {beforeTag : Bool} (here : c.At source taken rest)
    (h : Awaits source (s.enter (between beforeTag)) taken rest) :
    Ensures source (skipSpace source) c fun _ c' => ∃ taken' rest', c'.At source taken' rest' ∧
      rest'.length ≤ rest.length ∧ Awaits source (s.enter (between beforeTag)) taken' rest' ∧
      StartsElement rest' := by
  refine ensures_loop (fun _ taken' rest' => rest'.length ≤ rest.length ∧
    Awaits source (s.enter (between beforeTag)) taken' rest') ?_ here ⟨Nat.le_refl _, h⟩
  intro _ taken' rest' c here ⟨short, h⟩
  refine ensures_unlessAtEnd here ?_ ?_
  · rintro rfl
    exact ensures_pure ⟨taken', [], here, short, h, nofun⟩
  · rintro ch rest' rfl
    refine .bind (ensures_peek here fun c here => ?_)
    refine ensures_ite (fun comment => ?_) (fun noComment => ?_)
    · subst comment
      refine .bind ((ensures_takeWhile (Awaits source (s.enter (.comment beforeTag))) ?_ here
        h.comment).imp ?_)
      · intro taken ch rest is h
        have inLine : ch ≠ '\n' := by simpa using is
        exact h.next fun p => congrArg Except.ok (if_neg inLine)
      · rintro _ c ⟨taken₂, rest₂, here, ahead, h, stops⟩
        -- the semicolon itself is no end of a line
        have shorter : rest₂.length < (';' :: rest').length := by
          rcases ahead with rfl | shorter
          · cases stops ';' rfl
          · exact shorter
        exact ensures_pure ⟨taken₂, rest₂, here, shorter, by omega, h.uncomment stops⟩
    · refine ensures_ite (fun is => ?_) (fun noBlank => ?_)
      · refine .bind (ensures_next here fun c here => ?_)
        exact ensures_pure ⟨_, rest', here, Nat.lt_succ_self _, Nat.le_of_lt short, h.blank is⟩
      · refine ensures_pure ⟨taken', _, here, short, h, ?_⟩
        rintro _ ⟨⟩
        exact ⟨noComment, Bool.eq_false_iff.2 noBlank⟩

/-- The machine takes the characters of a word in a mode that collects them. -/
theorem ensures_word {mode : List Char → Mode} (collects : Collects mode)
    (here : c.At source taken rest) (h : Awaits source (s.enter (mode [])) taken rest) :
    Ensures source (word source) c fun chars c' => ∃ taken' rest', c'.At source taken' rest' ∧
      (rest' = rest ∨ rest'.length < rest.length) ∧
      Awaits source (s.enter (mode chars.reverse)) taken' rest' ∧
      ∀ ch, rest'.head? = some ch → isDelimiter ch = true := by
  refine .bind (ensures_index here ?_)
  refine .bind ((ensures_takeWhile (fun taken' rest' => ∃ chars, taken' = taken ++ chars ∧
    Awaits source (s.enter (mode chars.reverse)) taken' rest') ?_ here
    ⟨[], (List.append_nil _).symm, h⟩).imp ?_)
  · rintro _ ch rest is ⟨chars, rfl, h⟩
    have plain : isDelimiter ch = false := by simpa using is
    refine ⟨chars ++ [ch], List.append_assoc .., ?_⟩
    rw [List.reverse_concat]
    exact h.next fun p => collects (s.moved p) _ _ plain
  · rintro _ c ⟨_, rest', here, ahead, ⟨chars, rfl, h⟩, stops⟩
    refine .bind (ensures_index here ?_)
    rw [slice_eq here.split]
    refine ensures_pure ⟨_, rest', here, ahead, h, ?_⟩
    intro ch first
    simpa using stops ch first

/-! ## Literals -/

/-- The machine takes the characters between two marks in a mode of its own. It is left before the
mark at the end, behind which the cursor stands. -/
theorem ensures_literal {mark : Char} {mode : List Char → Bool → Mode} {fault : SyntaxFault}
    (quotes : Quotes mark mode)
    (unfinished : ∀ (s : State) chars escaped, (s.enter (mode chars escaped)).finish = s.fail fault)
    (here : c.At source taken rest) (h : Awaits source (s.enter (mode [] false)) taken rest) :
    Ensures source (literal source mark fault) c fun chars c' => ∃ taken' rest',
      c'.At source (taken' ++ [mark]) rest' ∧ rest'.length < rest.length ∧
      Awaits source (s.enter (mode chars.reverse false)) taken' (mark :: rest') := by
  -- a backslash is taken together with what it hides, so between two turns the machine can be
  -- behind one at the end of the text only
  refine ensures_loop (fun chars taken' rest' => rest'.length ≤ rest.length ∧
    ∃ escaped, (escaped = true → rest' = []) ∧
      Awaits source (s.enter (mode chars escaped)) taken' rest') ?_ here
    ⟨Nat.le_refl _, false, nofun, h⟩
  rintro chars taken' rest' c here ⟨short, escaped, last, h⟩
  refine ensures_unlessAtEnd here ?_ ?_
  · rintro rfl
    exact ensures_refuse here (h.ended.trans (unfinished (s.moved _) chars escaped))
  · rintro ch rest' rfl
    obtain rfl : escaped = false := Bool.eq_false_iff.2 fun is => nomatch last is
    have shorter : rest'.length < (ch :: rest').length := Nat.lt_succ_self _
    refine .bind (ensures_next here fun c here => ?_)
    refine ensures_ite (fun escape => ?_) (fun noEscape => ?_)
    · subst escape
      replace h : Awaits source (s.enter (mode ('\\' :: chars) true)) _ rest' :=
        h.next fun p => quotes.escape (s.moved p) chars
      refine ensures_unlessAtEnd here ?_ ?_
      · rintro rfl
        exact ensures_pure ⟨_, [], here, shorter, Nat.zero_le _, true, fun _ => rfl, h⟩
      · rintro hidden rest' rfl
        replace h : Awaits source (s.enter (mode (hidden :: '\\' :: chars) false)) _ rest' :=
          h.next fun p => quotes.escaped (s.moved p) _ hidden
        refine .bind (ensures_next here fun c here => ?_)
        simp only [List.length_cons] at short
        exact ensures_pure ⟨_, rest', here, by simp only [List.length_cons]; omega, by omega, false,
          nofun, h⟩
    · refine ensures_ite (fun closes => ?_) (fun noMark => ?_)
      · subst closes
        refine ensures_pure ⟨taken', rest', here, Nat.lt_of_lt_of_le shorter short, ?_⟩
        rw [List.reverse_reverse]
        exact h
      · refine ensures_pure ⟨_, rest', here, shorter,
          Nat.le_of_lt (Nat.lt_of_lt_of_le shorter short), false, nofun, ?_⟩
        exact h.next fun p => quotes.plain (s.moved p) chars ch noMark noEscape

/-- A string literal becomes a child of the node around it. -/
theorem ensures_quoted (here : c.At source taken ('"' :: rest))
    (h : Awaits source (s.within f) taken ('"' :: rest)) :
    Ensures source (quoted source) c fun a =>
      Ahead source (s.within (f.push (.atom a))) ('"' :: rest) := by
  have opened : Awaits source ((s.within f).enter (.string [] false)) (taken ++ ['"']) rest :=
    h.next fun _ => rfl
  refine .bind (ensures_next here fun c here => ?_)
  refine .bind ((ensures_literal quotes_string (fun _ _ _ => rfl) here opened).imp ?_)
  rintro chars c ⟨taken', rest', here, shorter, h⟩
  cases value : Quoted.decode chars with
  | none =>
    refine ensures_refuse here (h.refused ?_)
    simp only [State.step, State.moved, State.enter, State.stepString, List.reverse_reverse, value]
    rw [Position.behind_concat]
    rfl
  | some text =>
    refine ensures_pure ⟨_, rest', here, Nat.lt_succ_of_lt shorter, h.next fun p => ?_⟩
    simp only [State.step, State.moved, State.enter, State.stepString, List.reverse_reverse, value]
    rfl

/-! ## Atoms -/

/-- Whether a text goes on with a regular expression: a slash that is followed by anything but a
blank or a closing parenthesis. -/
def opensRegexp : List Char → Bool
  | ch :: ch' :: _ => ch == '/' && !isBlank ch' && ch' != ')'
  | _ => false

theorem ensures_startsRegexp (here : c.At source taken (ch :: rest)) :
    Ensures source (startsRegexp source) c fun is c' =>
      is = opensRegexp (ch :: rest) ∧ c'.At source taken (ch :: rest) := by
  refine .bind (ensures_peek here fun c here => ?_)
  refine .bind (ensures_index here ?_)
  have whole : taken.length + (rest.length + 1) = source.length := by
    rw [← here.split, List.length_append, List.length_cons]
  refine ensures_ite ?_ ?_
  · rintro ⟨rfl, more⟩
    cases rest with
    | nil => exact absurd more (by simp only [List.length_nil] at whole; omega)
    | cons ch' rest => exact .bind (ensures_peekBehind here (ensures_pure ⟨rfl, here⟩))
  · intro other
    refine ensures_pure ⟨?_, here⟩
    cases rest with
    | nil => rfl
    | cons ch' rest =>
      have noSlash : ch ≠ '/' := by
        rintro rfl
        exact other ⟨rfl, by simp only [List.length_cons] at whole; omega⟩
      simp [opensRegexp, noSlash]

/-- A regular expression becomes a child of the node around it. -/
theorem ensures_regexp (opens : opensRegexp (ch :: rest) = true)
    (here : c.At source taken (ch :: rest)) (h : Awaits source (s.within f) taken (ch :: rest)) :
    Ensures source (regexp source) c fun a =>
      Ahead source (s.within (f.push (.atom a))) (ch :: rest) := by
  obtain ⟨ch', rest, rfl⟩ : ∃ ch' rest', rest = ch' :: rest' := by
    cases rest with
    | nil => cases opens
    | cons ch' rest => exact ⟨ch', rest, rfl⟩
  simp only [opensRegexp, Bool.and_eq_true, beq_iff_eq, Bool.not_eq_true', bne_iff_ne] at opens
  obtain ⟨⟨rfl, noBlank⟩, noClose⟩ := opens
  have slash : Awaits source ((s.within f).enter .slash) (taken ++ ['/']) (ch' :: rest) :=
    h.next fun _ => rfl
  have opened : Awaits source ((s.within f).enter (.regexp [] false)) (taken ++ ['/'])
      (ch' :: rest) := by
    refine slash.congr ?_ nofun
    rintro p _ ⟨⟩
    exact if_neg (by simp [noBlank, noClose])
  refine .bind (ensures_next here fun c here => ?_)
  refine .bind ((ensures_literal quotes_regexp (fun _ _ _ => rfl) here opened).imp ?_)
  rintro chars c ⟨taken', rest', here, shorter, h⟩
  refine ensures_pure ⟨_, rest', here, Nat.lt_succ_of_lt shorter, h.next fun p => ?_⟩
  simp only [State.step, State.moved, State.enter, State.stepRegexp, List.reverse_reverse]
  rfl

/-- A word starts with a character that ends none, except for the start of a regular expression. -/
theorem Awaits.startWord (plain : isDelimiter ch = false) (opens : opensRegexp (ch :: rest) = false)
    (h : Awaits source (s.within f) taken (ch :: rest)) :
    Awaits source ((s.within f).enter (.word [])) taken (ch :: rest) := by
  have collected (p : Position) : (((s.within f).enter (.word [])).moved p).step ch
      = .ok (((s.within f).enter (.word [ch])).moved (p.after ch)) :=
    collects_word ((s.within f).moved p) [] ch plain
  refine (awaits_cons_iff collected).2 ?_
  by_cases slash : ch = '/'
  · subst slash
    have slash : Awaits source ((s.within f).enter .slash) (taken ++ ['/']) rest :=
      h.next fun _ => rfl
    refine slash.congr ?_ ?_
    · intro p ch' first
      obtain ⟨rest, rfl⟩ := List.head?_eq_some_iff.1 first
      have stops : EndsElement (ch' :: rest) := by
        by_contra other
        simp [opensRegexp, not_or.1 other] at opens
      exact (if_pos stops).trans (if_pos (isDelimiter_of_endsElement stops)).symm
    · rintro rfl p
      rfl
  · refine h.next fun p => ?_
    simp only [isDelimiter, Bool.or_eq_false_iff, beq_eq_false_iff_ne] at plain
    simp [State.step, State.stepBlank, State.within, State.moved, State.advance, State.enter, plain,
      slash]

/-- The end of a word is taken as if the word were a child already. -/
theorem Awaits.endWord {chars : List Char}
    (h : Awaits source ((s.within f).enter (.word chars.reverse)) taken rest)
    (stops : ∀ ch, rest.head? = some ch → isDelimiter ch = true) :
    Awaits source (s.within (f.push (.atom (.ofWord chars)))) taken rest := by
  refine h.congr ?_ ?_
  · intro p ch first
    have delimits := stops ch first
    simp only [State.step, State.moved, State.enter, delimits, List.reverse_reverse]
    rfl
  · rintro rfl p
    rfl

theorem ensures_atom (plain : isDelimiter ch = false) (here : c.At source taken (ch :: rest))
    (h : Awaits source (s.within f) taken (ch :: rest)) :
    Ensures source (atom source) c fun a =>
      Ahead source (s.within (f.push (.atom a))) (ch :: rest) := by
  refine .bind ((ensures_startsRegexp here).imp ?_)
  rintro _ c ⟨rfl, here⟩
  refine ensures_ite (fun opens => ensures_regexp opens here h) (fun other => ?_)
  have start := h.startWord plain (Bool.eq_false_iff.2 other)
  refine .bind ((ensures_word collects_word here start).imp ?_)
  rintro chars c ⟨taken', rest', here, ahead, h, stops⟩
  refine ensures_pure ⟨taken', rest', here, ?_, h.endWord stops⟩
  -- the first character belongs to the word
  rcases ahead with rfl | shorter
  · rw [stops ch rfl] at plain
    cases plain
  · exact shorter

/-! ## Nodes -/

/-- The line that a new node inherits. -/
def inheritedLine (s : State) : Int := (s.frames.head?.map Frame.line).getD 0

/-- What can start a tag is taken as if the tag were begun. -/
theorem Awaits.startHead (starts : StartsElement (ch :: rest)) (noNode : ¬ (ch = '(' ∨ ch = ')'))
    (h : Awaits source (s.enter .opened) taken (ch :: rest)) :
    Awaits source (s.enter (.head [])) taken (ch :: rest) := by
  refine h.congr ?_ nofun
  rintro p _ ⟨⟩
  obtain ⟨noComment, noBlank⟩ := starts ch rfl
  obtain ⟨noOpen, noClose⟩ := not_or.1 noNode
  by_cases quote : ch = '"'
  · subst quote
    rfl
  · simp [State.step, State.moved, State.advance, State.enter, isDelimiter, noComment, noBlank,
      noOpen, noClose, quote]

/-- The end of a head is taken as if the node were open already. -/
theorem Awaits.endHead {chars : List Char}
    (h : Awaits source (s.enter (.head chars.reverse)) taken rest)
    (stops : ∀ ch, rest.head? = some ch → isDelimiter ch = true)
    (found : Frame.ofHead? (inheritedLine s) chars.reverse = some f) :
    Awaits source (s.within f) taken rest := by
  have opened (p : Position) : ((s.enter (.head chars.reverse)).moved p).openNode chars.reverse
      = .ok ((s.within f).moved p) := by
    unfold inheritedLine at found
    simp only [State.openNode, State.moved, State.enter, found]
    rfl
  refine h.congr ?_ ?_
  · intro p ch first
    refine (if_pos (stops ch first)).trans ?_
    rw [opened]
    rfl
  · rintro rfl p
    change ((s.enter (.head chars.reverse)).moved p).openNode chars.reverse >>= _ = _
    rw [opened]
    rfl

/-- A head with a line that cannot be read is refused at its end. -/
theorem Awaits.badHead {chars : List Char}
    (h : Awaits source (s.enter (.head chars.reverse)) taken rest)
    (stops : ∀ ch, rest.head? = some ch → isDelimiter ch = true)
    (missing : Frame.ofHead? (inheritedLine s) chars.reverse = none) :
    Tree.read source = .error ⟨.behind taken, .badLine (String.ofList chars)⟩ := by
  have unopened : ((s.enter (.head chars.reverse)).moved (.behind taken)).openNode chars.reverse
      = .error ⟨.behind taken, .badLine (String.ofList chars)⟩ := by
    unfold inheritedLine at missing
    simp only [State.openNode, State.moved, State.enter, missing, List.reverse_reverse]
    rfl
  cases rest with
  | nil =>
    rw [h.ended]
    change ((s.enter (.head chars.reverse)).moved _).openNode chars.reverse >>= _ = _
    rw [unopened]
    rfl
  | cons ch rest =>
    refine h.refused ((if_pos (stops ch rfl)).trans ?_)
    rw [unopened]
    rfl

/-- Behind the head of a node the machine is within the node. -/
theorem ensures_head (here : c.At source taken ('(' :: rest))
    (h : Awaits source (s.enter .blank) taken ('(' :: rest)) :
    Ensures source (head source (inheritedLine s)) c fun f =>
      Ahead source (s.within f) ('(' :: rest) := by
  have opened : Awaits source (s.enter (between true)) (taken ++ ['(']) rest :=
    h.next fun _ => rfl
  refine .bind (ensures_next here fun c here => ?_)
  refine .bind ((ensures_skipSpace here opened).imp ?_)
  rintro _ c ⟨taken', rest', here, short, h, starts⟩
  refine ensures_unlessAtEnd here ?_ ?_
  · rintro rfl
    exact ensures_refuse here h.ended
  · rintro ch rest' rfl
    obtain ⟨noComment, noBlank⟩ := starts ch rfl
    refine .bind (ensures_peek here fun c here => ?_)
    refine ensures_ite (fun isNode => ?_) (fun noNode => ?_)
    · refine ensures_refuse here (h.refused ?_)
      exact (if_neg noComment).trans ((if_neg (Bool.eq_false_iff.1 noBlank)).trans (if_pos isNode))
    · have start : Awaits source (s.enter (.head [])) taken' (ch :: rest') :=
        h.startHead starts noNode
      refine .bind ((ensures_word collects_head here start).imp ?_)
      rintro chars c ⟨taken₂, rest₂, here, ahead, h, stops⟩
      cases found : Frame.ofHead? (inheritedLine s) chars.reverse with
      | none => exact ensures_refuse here (h.badHead stops found)
      | some f =>
        refine ensures_pure ⟨taken₂, rest₂, here, ?_, h.endHead stops found⟩
        refine Nat.lt_succ_of_le (Nat.le_trans ?_ short)
        rcases ahead with rfl | shorter
        · exact Nat.le_refl _
        · exact Nat.le_of_lt shorter

/-- The children of a node are read within the text that is left behind its head. -/
def Within (source : List Char) (s : State) (outer : List Char) (f : Frame)
    (taken rest : List Char) : Prop :=
  rest.length < outer.length ∧ Awaits source (s.within f) taken rest

/-- A turn that reads a child moves ahead. -/
theorem ensures_child {α : Type} {x : Reading α} {tree : α → Tree} {outer rest' : List Char}
    {post : Tree → Cursor → Prop} (short : rest.length < outer.length)
    (skipped : rest'.length ≤ rest.length)
    (h : Ensures source x c fun a => Ahead source (s.within (f.push (tree a))) rest') :
    Ensures source (do let a ← x; return .again (f.push (tree a))) c
      (KeepsAhead source (Within source s outer) post rest) := by
  refine .bind (h.imp ?_)
  rintro a c ⟨taken₂, rest₂, here, ahead, awaits⟩
  have shorter : rest₂.length < rest.length := Nat.lt_of_lt_of_le ahead skipped
  exact ensures_pure ⟨taken₂, rest₂, here, shorter, Nat.lt_trans shorter short, awaits⟩

/-- A child is added to the node around it, or the node is closed and added to what is around
it. -/
theorem ensures_childTurn {child : Int → Reading Tree} {outer : List Char}
    (nested : ∀ {f taken rest c}, Within source s outer f taken ('(' :: rest) →
      c.At source taken ('(' :: rest) →
      Ensures source (child f.line) c fun t => Ahead source (s.within (f.push t)) ('(' :: rest))
    (here : c.At source taken rest) (inside : Within source s outer f taken rest) :
    Ensures source (childTurn source child f) c
      (KeepsAhead source (Within source s outer) (fun t => Ahead source (s.add t) outer) rest) := by
  obtain ⟨short, h⟩ := inside
  have start : Awaits source ((s.within f).enter (between false)) taken rest := h
  refine .bind ((ensures_skipSpace here start).imp ?_)
  rintro _ c ⟨taken', rest', here, skipped, h, starts⟩
  refine ensures_unlessAtEnd here ?_ ?_
  · rintro rfl
    exact ensures_refuse here h.ended
  · rintro ch rest' rfl
    have short' : (ch :: rest').length < outer.length := Nat.lt_of_le_of_lt skipped short
    obtain ⟨noComment, noBlank⟩ := starts ch rfl
    refine .bind (ensures_peek here fun c here => ?_)
    refine ensures_ite (fun closes => ?_) (fun noClose => ?_)
    · subst closes
      refine .bind (ensures_next here fun c here => ?_)
      refine ensures_pure ⟨_, rest', here, Nat.lt_of_succ_lt short', h.next fun p => ?_⟩
      exact congrArg Except.ok (State.moved_close_within s f _)
    · refine ensures_ite (fun opens => ?_) (fun noOpen => ?_)
      · subst opens
        exact ensures_child short skipped (nested ⟨short', h⟩ here)
      · refine ensures_ite (fun quotes => ?_) (fun noQuote => ?_)
        · subst quotes
          exact ensures_child short skipped (ensures_quoted here h)
        · have plain : isDelimiter ch = false := by
            simp [isDelimiter, noComment, noBlank, noClose, noOpen, noQuote]
          exact ensures_child short skipped (ensures_atom plain here h)

/-- A node is added to what is around it. -/
theorem ensures_node (depth : Nat) {s : State} {taken rest : List Char} {c : Cursor}
    (provided : ('(' :: rest).length ≤ depth) (here : c.At source taken ('(' :: rest))
    (h : Awaits source (s.enter .blank) taken ('(' :: rest)) :
    Ensures source (node source depth (inheritedLine s)) c fun t =>
      Ahead source (s.add t) ('(' :: rest) := by
  induction depth generalizing s taken rest c with
  | zero => cases provided
  | succ depth ih =>
    refine .bind ((ensures_head here h).imp ?_)
    rintro f c ⟨taken', rest', here, ahead, h⟩
    refine ensures_loop (Within source s ('(' :: rest)) ?_ here ⟨ahead, h⟩
    intro f taken' rest' c here inside
    refine ensures_childTurn ?_ here inside
    -- what is nested is shorter, so less depth is needed for it
    intro f taken' rest' c ⟨short, h⟩ here
    have start : Awaits source ((s.within f).enter .blank) taken' ('(' :: rest') := h
    exact ih (Nat.le_of_lt_succ (Nat.lt_of_lt_of_le short provided)) here start

/-! ## Texts -/

theorem ensures_rootTurn {roots : List Tree} (here : c.At source taken rest)
    (h : Awaits source { roots } taken rest) :
    Ensures source (rootTurn source roots) c
      (KeepsAhead source (fun roots => Awaits source { roots })
        (fun t c' => Tree.read source = .ok t ∧ ∃ taken', c'.At source taken' []) rest) := by
  have start : Awaits source (State.enter { roots } (between false)) taken rest := h
  refine .bind ((ensures_skipSpace here start).imp ?_)
  rintro _ c ⟨taken', rest', here, skipped, h, starts⟩
  refine ensures_unlessAtEnd here ?_ ?_
  · rintro rfl
    exact ensures_pure ⟨h.ended, taken', here⟩
  · rintro ch rest' rfl
    obtain ⟨noComment, noBlank⟩ := starts ch rfl
    refine .bind (ensures_peek here fun c here => ?_)
    refine ensures_ite (fun opens => ?_) (fun noOpen => ?_)
    · subst opens
      have provided : ('(' :: rest').length ≤ source.length := by
        rw [← here.split, List.length_append]
        exact Nat.le_add_left _ _
      refine .bind ((ensures_node source.length provided here h).imp ?_)
      rintro t c ⟨taken₂, rest₂, here, ahead, h⟩
      exact ensures_pure ⟨taken₂, rest₂, here, Nat.lt_of_lt_of_le ahead skipped, h⟩
    · refine ensures_refuse here (h.refused ?_)
      simp only [State.step, State.moved, State.enter, between, Bool.false_eq_true, if_false,
        State.stepBlank, if_neg noComment, noBlank, if_neg noOpen]
      rfl

theorem ensures_read :
    Ensures source (read source) {} fun t c' =>
      Tree.read source = .ok t ∧ ∃ taken, c'.At source taken [] := by
  have here : Cursor.At source [] source {} := ⟨rfl, rfl, nofun⟩
  refine ensures_loop (fun roots => Awaits source { roots }) ?_ here rfl
  intro roots taken rest c here h
  exact ensures_rootTurn here h

/-- A place in a text has the line and the column that its index tells: one more than the line
breaks before it, and one more than the characters since the last of them. -/
structure Place.Exact (source : List Char) (p : Place) : Prop where
  inside : p.index ≤ source.length
  line : p.position.line = 1 + (source.take p.index).count '\n'
  column : p.position.column = 1 + ((source.take p.index).reverse.takeWhile (· != '\n')).length

theorem exact_of_append {before after : List Char} (split : before ++ after = source) :
    Place.Exact source ⟨before.length, .behind before⟩ := by
  subst split
  refine ⟨?_, ?_, ?_⟩
  · rw [List.length_append]
    exact Nat.le_add_right _ _
  · rw [List.take_left, Position.behind_eq]
  · rw [List.take_left, Position.behind_eq]

theorem Cursor.At.exact (here : c.At source taken rest) :
    c.place.Exact source ∧ ∀ v ∈ c.visits, v.index < source.length ∧ v.Exact source := by
  constructor
  · rw [here.place]
    exact exact_of_append here.split
  · intro v mem
    obtain ⟨before, ch, after, split, rfl⟩ := here.visits v mem
    refine ⟨?_, exact_of_append split⟩
    rw [← split, List.length_append, List.length_cons]
    exact Nat.lt_add_of_pos_right (Nat.succ_pos _)

/-- Reading a text by descent comes to its end: it gives the tree that the machine answers with, and
the whole text is taken then, or it is refused with the error of the machine, at the place that is
reached. It never looks behind the end of the text, no loop goes round without moving ahead, and no
node is nested too deeply. Every character is looked at within the text, at the line and the column
that the characters before it tell, and so are those of an error. -/
theorem read_exact (source : List Char) : ∃ c : Cursor,
    ((∃ t, read source {} = .ok t c ∧ Tree.read source = .ok t ∧ c.place.index = source.length) ∨
      ∃ e, read source {} = .error (.refused e) c ∧ Tree.read source = .error e ∧
        e.position = c.place.position) ∧
    c.place.Exact source ∧ ∀ v ∈ c.visits, v.index < source.length ∧ v.Exact source := by
  have ensured := @ensures_read source
  unfold Ensures at ensured
  cases ran : read source {} with
  | ok t c =>
    rw [ran] at ensured
    obtain ⟨answer, taken, here⟩ := ensured
    exact ⟨c, Or.inl ⟨t, rfl, answer, here.length⟩, here.exact⟩
  | error stop c =>
    rw [ran] at ensured
    obtain ⟨e, taken, rest, rfl, refused, here, same⟩ := ensured
    refine ⟨c, Or.inr ⟨e, rfl, refused, ?_⟩, here.exact⟩
    rw [same, here.place]

end Descent

end CodeSmell
