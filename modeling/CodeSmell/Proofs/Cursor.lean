import CodeSmell.Tree.Reader
import Mathlib.Data.List.Induction

/-!
# Reading with a cursor

A text can be read by a cursor that looks at characters by their index, moves ahead one by one, and
counts lines and columns as it goes. Such a reading is written with loops. It can go wrong in ways
in which the machine of `CodeSmell.Reader` cannot: it may look behind the end of the text, and a
loop may go round without moving ahead. Both are recorded as reasons to stop, so that it can be
proved that neither happens. Every look at a character is noted with its place.

`Ensures` says what a reading comes to, given what the machine makes of the whole text: it either
succeeds with a result and a cursor as required, or is refused with the error of the machine. The
rules below follow the form of a reading; the rule for loops is `ensures_loop`.
-/

set_option autoImplicit false

namespace CodeSmell

/-! ## Places behind characters -/

namespace Position

/-- The place behind some characters at the start of a text. -/
def behind (taken : List Char) : Position := taken.foldl after {}

theorem behind_concat (taken : List Char) (c : Char) :
    behind (taken ++ [c]) = (behind taken).after c := by
  rw [behind, List.foldl_append]
  rfl

/-- Lines are counted by the line breaks before them, and columns by the characters since the last
line break. -/
theorem behind_eq (taken : List Char) :
    behind taken
      = ⟨1 + taken.count '\n', 1 + (taken.reverse.takeWhile (· != '\n')).length⟩ := by
  induction taken using List.reverseRecOn with
  | nil => rfl
  | append_singleton taken c ih =>
    rw [behind_concat, ih, after, List.count_append, List.reverse_append]
    by_cases broken : c = '\n'
    · subst broken
      rfl
    · simp [broken, Nat.add_comm]

end Position

namespace Descent

/-! ## Cursors -/

/-- A place in a text, with its index. -/
structure Place where
  index : Nat := 0
  position : Position := {}

/-- The place behind a character. -/
def Place.after (p : Place) (ch : Char) : Place := ⟨p.index + 1, p.position.after ch⟩

/-- A cursor: the place it has reached, and the places at which it has looked at a character, the
latest first. -/
structure Cursor where
  place : Place := {}
  visits : List Place := []

/-- Why a reading stops before it has come to its end. -/
inductive Stop where
  /-- The text is no tree. -/
  | refused (e : SyntaxError)
  /-- A character behind the end of the text was asked for. -/
  | outOfBounds
  /-- A loop went round without moving ahead. -/
  | stuck
  /-- Nodes are nested more deeply than was provided for. -/
  | tooDeep

/-- A reading, which moves the cursor. -/
abbrev Reading (α : Type) := EStateM Stop Cursor α

variable {α β σ : Type} (source : List Char)

/-- Whether the end of the text is reached. -/
def atEnd : Reading Bool := fun c => .ok (source.length ≤ c.place.index) c

/-- The index that the cursor has reached. -/
def index : Reading Nat := fun c => .ok c.place.index c

/-- The next character, which is not taken. -/
def peek : Reading Char := fun c =>
  match source[c.place.index]? with
  | some ch => .ok ch { c with visits := c.place :: c.visits }
  | none => .error .outOfBounds c

/-- The character behind the next one. -/
def peekBehind : Reading Char := fun c =>
  match source[c.place.index + 1]? with
  | some ch => .ok ch c
  | none => .error .outOfBounds c

/-- Takes the next character. -/
def next : Reading Char := fun c =>
  match source[c.place.index]? with
  | some ch => .ok ch ⟨c.place.after ch, c.place :: c.visits⟩
  | none => .error .outOfBounds c

/-- The characters between two indices. -/
def slice (start stop : Nat) : List Char := (source.drop start).take (stop - start)

/-- Refuses the text at the place that is reached. -/
def refuse (fault : SyntaxFault) : Reading α := fun c =>
  .error (.refused ⟨c.place.position, fault⟩) c

/-- The end of a turn of a loop. -/
inductive Turn (σ α : Type) where
  | leave (a : α)
  | again (s : σ)

/-- Takes turns until one leaves the loop. A turn that does not leave it has to move the cursor
ahead. -/
def loop (turn : σ → Reading (Turn σ α)) (s : σ) (c : Cursor) : EStateM.Result Stop Cursor α :=
  match turn s c with
  | .error stop c' => .error stop c'
  | .ok (.leave a) c' => .ok a c'
  | .ok (.again s') c' =>
    if c.place.index < c'.place.index ∧ c'.place.index ≤ source.length then loop turn s' c'
    else .error .stuck c'
termination_by source.length - c.place.index

/-! ## Rules -/

/-- A cursor stands between the characters that were taken and the rest of the text. It has looked
only at characters that are there, each at the place behind the characters before it. -/
structure Cursor.At (taken rest : List Char) (c : Cursor) : Prop where
  split : taken ++ rest = source
  place : c.place = ⟨taken.length, .behind taken⟩
  visits : ∀ v ∈ c.visits, ∃ before ch after, before ++ ch :: after = source ∧
    v = ⟨before.length, .behind before⟩

/-- The only reason to stop is that the whole text is refused, at the place behind what was
taken. -/
def Stop.Justified (stop : Stop) (c : Cursor) : Prop :=
  ∃ e taken rest, stop = .refused e ∧ Tree.read source = .error e ∧ c.At source taken rest ∧
    e.position = .behind taken

/-- A reading comes to its end as required, or the text is refused. -/
def Ensures (x : Reading α) (c : Cursor) (post : α → Cursor → Prop) : Prop :=
  match x c with
  | .ok a c' => post a c'
  | .error stop c' => stop.Justified source c'

section Rules

variable {source} {taken rest : List Char} {ch : Char} {c : Cursor} {post : α → Cursor → Prop}

theorem ensures_of_ok {x : Reading α} {a : α} {c' : Cursor} (ran : x c = .ok a c')
    (h : post a c') : Ensures source x c post := by
  rw [Ensures, ran]
  exact h

theorem Ensures.imp {x : Reading α} {post' : α → Cursor → Prop} (h : Ensures source x c post)
    (weaker : ∀ a c', post a c' → post' a c') : Ensures source x c post' := by
  unfold Ensures at h ⊢
  cases ran : x c with
  | ok a c' =>
    rw [ran] at h
    exact weaker a c' h
  | error stop c' =>
    rw [ran] at h
    exact h

theorem Ensures.bind {x : Reading β} {f : β → Reading α}
    (h : Ensures source x c fun b c' => Ensures source (f b) c' post) :
    Ensures source (x >>= f) c post := by
  unfold Ensures at h ⊢
  change match EStateM.bind x f c with
    | .ok a c' => post a c'
    | .error stop c' => stop.Justified source c'
  unfold EStateM.bind
  cases ran : x c with
  | ok b c' =>
    rw [ran] at h
    exact h
  | error stop c' =>
    rw [ran] at h
    exact h

theorem ensures_pure {a : α} (h : post a c) : Ensures source (pure a) c post := h

theorem ensures_ite {p : Prop} [Decidable p] {x y : Reading α} (pos : p → Ensures source x c post)
    (neg : ¬ p → Ensures source y c post) : Ensures source (if p then x else y) c post := by
  split
  · exact pos ‹p›
  · exact neg ‹¬ p›

theorem Cursor.At.getElem?_index (here : c.At source taken rest) :
    source[c.place.index]? = rest[0]? := by
  rw [here.place, ← here.split, List.getElem?_append_right (Nat.le_refl _), Nat.sub_self]

theorem Cursor.At.length (here : c.At source taken rest) :
    c.place.index + rest.length = source.length := by
  rw [here.place, ← here.split, List.length_append]

theorem ensures_atEnd {post : Bool → Cursor → Prop} (here : c.At source taken rest)
    (h : post rest.isEmpty c) : Ensures source (atEnd source) c post := by
  have same : decide (source.length ≤ c.place.index) = rest.isEmpty := by
    have whole := here.length
    cases rest with
    | nil =>
      rw [List.length_nil, Nat.add_zero] at whole
      simp [whole]
    | cons ch rest =>
      rw [List.length_cons] at whole
      simp only [List.isEmpty_cons, decide_eq_false_iff_not]
      omega
  rw [← same] at h
  exact h

/-- At the end of the text one thing is done, and before it another. -/
theorem ensures_unlessAtEnd {x y : Reading α} (here : c.At source taken rest)
    (ended : rest = [] → Ensures source x c post)
    (more : ∀ ch rest', rest = ch :: rest' → Ensures source y c post) :
    Ensures source (do if ← atEnd source then x else y) c post := by
  refine .bind (ensures_atEnd here ?_)
  cases rest with
  | nil => exact ended rfl
  | cons ch rest => exact more ch rest rfl

theorem ensures_index {post : Nat → Cursor → Prop} (here : c.At source taken rest)
    (h : post taken.length c) : Ensures source index c post := by
  have same : c.place.index = taken.length := by rw [here.place]
  rw [← same] at h
  exact h

theorem Cursor.At.visit (here : c.At source taken (ch :: rest)) :
    ∀ v ∈ c.place :: c.visits, ∃ before ch after, before ++ ch :: after = source ∧
      v = ⟨before.length, .behind before⟩ := by
  intro v mem
  rcases List.mem_cons.1 mem with rfl | mem
  · exact ⟨taken, ch, rest, here.split, here.place⟩
  · exact here.visits v mem

theorem ensures_peek {post : Char → Cursor → Prop} (here : c.At source taken (ch :: rest))
    (h : ∀ c', c'.At source taken (ch :: rest) → post ch c') :
    Ensures source (peek source) c post := by
  have ran : peek source c = .ok ch { c with visits := c.place :: c.visits } := by
    rw [peek, here.getElem?_index]
    rfl
  exact ensures_of_ok ran (h _ ⟨here.split, here.place, here.visit⟩)

theorem ensures_peekBehind {post : Char → Cursor → Prop} {ch' : Char}
    (here : c.At source taken (ch :: ch' :: rest)) (h : post ch' c) :
    Ensures source (peekBehind source) c post := by
  have found : source[c.place.index + 1]? = some ch' := by
    rw [here.place, ← here.split, List.getElem?_append_right (Nat.le_add_right _ _),
      Nat.add_sub_cancel_left]
    rfl
  have ran : peekBehind source c = .ok ch' c := by rw [peekBehind, found]
  exact ensures_of_ok ran h

theorem ensures_next {post : Char → Cursor → Prop} (here : c.At source taken (ch :: rest))
    (h : ∀ c', c'.At source (taken ++ [ch]) rest → post ch c') :
    Ensures source (next source) c post := by
  have ran : next source c = .ok ch ⟨c.place.after ch, c.place :: c.visits⟩ := by
    rw [next, here.getElem?_index]
    rfl
  refine ensures_of_ok ran (h _ ⟨?_, ?_, here.visit⟩)
  · rw [List.append_assoc, List.singleton_append, here.split]
  · rw [here.place, Place.after, List.length_append, Position.behind_concat]
    rfl

theorem ensures_refuse {fault : SyntaxFault} (here : c.At source taken rest)
    (refused : Tree.read source = .error ⟨.behind taken, fault⟩) :
    Ensures source (refuse fault : Reading α) c post := by
  have same : c.place.position = .behind taken := by rw [here.place]
  rw [← same] at refused
  exact ⟨_, taken, rest, rfl, refused, here, same⟩

/-- What a turn of a loop has to do: to leave the loop as required, or to move ahead and keep an
invariant. -/
def KeepsAhead (source : List Char) (inv : σ → List Char → List Char → Prop)
    (post : α → Cursor → Prop) (rest : List Char) : Turn σ α → Cursor → Prop
  | .leave a, c' => post a c'
  | .again s', c' => ∃ taken' rest', c'.At source taken' rest' ∧ rest'.length < rest.length ∧
    inv s' taken' rest'

/-- A loop comes to its end if each turn moves ahead or leaves it, since the text is finite. -/
theorem ensures_loop {turn : σ → Reading (Turn σ α)} (inv : σ → List Char → List Char → Prop)
    (each : ∀ s taken rest c, c.At source taken rest → inv s taken rest →
      Ensures source (turn s) c (KeepsAhead source inv post rest))
    {s : σ} (here : c.At source taken rest) (start : inv s taken rest) :
    Ensures source (loop source turn s) c post := by
  -- by induction on the number of characters that are left
  induction size : rest.length using Nat.strongRecOn generalizing s c taken rest with
  | ind n ih =>
    have turned := each s taken rest c here start
    unfold Ensures at turned ⊢
    rw [loop]
    cases ran : turn s c with
    | error stop c' =>
      rw [ran] at turned
      exact turned
    | ok ended c' =>
      rw [ran] at turned
      cases ended with
      | leave a => exact turned
      | again s' =>
        obtain ⟨taken', rest', here', shorter, kept⟩ := turned
        have ahead : c.place.index < c'.place.index ∧ c'.place.index ≤ source.length := by
          have before := here.length
          have behind := here'.length
          omega
        simp only [if_pos ahead]
        exact ih rest'.length (size ▸ shorter) here' kept rfl

/-- The characters between two indices are those that were taken in between. -/
theorem slice_eq {before between : List Char} (split : before ++ between ++ rest = source) :
    slice source before.length (before ++ between).length = between := by
  rw [slice, ← split, List.append_assoc, List.drop_left, List.length_append,
    Nat.add_sub_cancel_left, List.take_left]

end Rules

end Descent

end CodeSmell
