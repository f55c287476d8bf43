import CodeSmell.Proofs.ReadAtoms
import CodeSmell.Tree.Rendering

/-!
# Writing trees and reading them back

A tree is written as `(tag:line child ...)`, with its atoms as they are rendered (`Tree.written`).
The layout is free: between two elements may stand any blanks and comments that begin with a blank,
and a node may leave out a line that it shares with the node around it (`Tree.WrittenAs`). However
it is written, a tree whose tags consist of characters is read back as it was. A tag may have bytes
that are part of no character, and these are not read back (`strayTree`).

The machine is followed forwards: `Reader.Reads` says which tree it answers a text with, and each
piece of a text carries that answer from the configuration behind the piece to the one before it.
-/

set_option autoImplicit false

namespace CodeSmell

/-! ## Lines in decimal digits -/

namespace Decimal

theorem digitsFrom_eq_ofDigitChars {cs : List Char} (digits : ∀ c ∈ cs, c.isDigit) (n : Nat) :
    digitsFrom n cs = some (Nat.ofDigitChars 10 cs n) := by
  induction cs generalizing n with
  | nil => rfl
  | cons c cs ih =>
    obtain ⟨first, rest⟩ := List.forall_mem_cons.1 digits
    rw [digitsFrom, if_pos first, ih rest, Nat.ofDigitChars, Nat.ofDigitChars, List.foldl_cons,
      Nat.mul_comm]

theorem isDigit_of_mem_toDigits {n : Nat} : ∀ c ∈ Nat.toDigits 10 n, c.isDigit := by
  intro c mem
  exact Nat.isDigit_of_mem_toDigits (by decide) (by decide) mem

theorem readNat?_toDigits (n : Nat) : readNat? (Nat.toDigits 10 n) = some n := by
  have value : digitsFrom 0 (Nat.toDigits 10 n) = some n := by
    rw [digitsFrom_eq_ofDigitChars isDigit_of_mem_toDigits,
      Nat.ofDigitChars_toDigits (by decide) (by decide)]
  unfold readNat?
  split
  next empty => exact absurd empty Nat.toDigits_ne_nil
  next => exact value

theorem readInt?_toDigits (n : Nat) : readInt? (Nat.toDigits 10 n) = some (Int.ofNat n) := by
  have value := readNat?_toDigits n
  have digits := isDigit_of_mem_toDigits (n := n)
  unfold readInt?
  split
  next eq => exact absurd (digits '+' (eq ▸ List.mem_cons_self)) (by decide)
  next eq => exact absurd (digits '-' (eq ▸ List.mem_cons_self)) (by decide)
  next => rw [value, Option.map_some]

theorem toList_toString_ofNat (n : Nat) :
    (toString (Int.ofNat n)).toList = Nat.toDigits 10 n :=
  String.toList_ofList

theorem toList_toString_negSucc (n : Nat) :
    (toString (Int.negSucc n)).toList = '-' :: Nat.toDigits 10 (n + 1) := by
  rw [Int.toString_eq_repr, Int.repr, String.toList_append]
  exact congrArg _ String.toList_ofList

/-- An integer of 64 bits is read from the digits it is written in. -/
theorem readInt64?_toString {n : Int} (fits : fitsInt64 n) :
    readInt64? (toString n).toList = some n := by
  have value : readInt? (toString n).toList = some n := by
    cases n with
    | ofNat n => rw [toList_toString_ofNat, readInt?_toDigits]
    | negSucc n =>
      rw [toList_toString_negSucc, readInt?, readNat?_toDigits]
      rfl
  rw [readInt64?, value, Option.filter_some, if_pos fits]

theorem isDigit_or_eq_of_mem_toString {n : Int} :
    ∀ c ∈ (toString n).toList, c.isDigit ∨ c = '-' := by
  intro c mem
  cases n with
  | ofNat n =>
    rw [toList_toString_ofNat] at mem
    exact .inl (isDigit_of_mem_toDigits c mem)
  | negSucc n =>
    rw [toList_toString_negSucc] at mem
    rcases List.mem_cons.1 mem with sign | mem
    · exact .inr sign
    · exact .inl (isDigit_of_mem_toDigits c mem)

end Decimal

/-! ## Layouts -/

/-- Blanks and comments, perhaps none. -/
inductive Gap : List Char → Prop where
  | nil : Gap []
  | blank {c : Char} {rest : List Char} (is : isBlank c) (more : Gap rest) : Gap (c :: rest)
  | comment {note rest : List Char} (oneLine : '\n' ∉ note) (more : Gap rest) :
      Gap (';' :: (note ++ '\n' :: rest))

/-- What stands in front of an element: blanks and comments, a blank first. -/
inductive Separator : List Char → Prop where
  | mk {c : Char} {rest : List Char} (is : isBlank c) (more : Gap rest) : Separator (c :: rest)

/-- The heads of a node inside one with the line `outer`. The line can be left out if it is the same
and no part of the tag would be taken for it. -/
inductive Head (outer : Int) (tag : Tag) (line : Int) : List Char → Prop where
  | full : Head outer tag line (tag.name.sourceChars ++ ':' :: (toString line).toList)
  | bare (same : line = outer) (noColon : ':' ∉ tag.name.sourceChars.tail) :
      Head outer tag line tag.name.sourceChars

/-- The ways to write trees one after the other inside a node with the line `outer`. -/
inductive Elements : Int → List Tree → List Char → Prop where
  | nil {outer : Int} : Elements outer [] []
  | atom {outer : Int} {a : Atom} {ts : List Tree} {gap text : List Char} (before : Separator gap)
      (more : Elements outer ts text) :
      Elements outer (.atom a :: ts) (gap ++ (a.rendered.sourceChars ++ text))
  | node {outer line : Int} {tag : Tag} {children ts : List Tree}
      {gap head inside text : List Char} (before : Separator gap)
      (starts : Head outer tag line head) (holds : Elements line children inside)
      (more : Elements outer ts text) :
      Elements outer (.node tag line children :: ts)
        (gap ++ '(' :: (head ++ (inside ++ ')' :: text)))

/-- The ways to write a node that stands by itself. -/
inductive Tree.WrittenAs : Tree → List Char → Prop where
  | node {tag : Tag} {line : Int} {children : List Tree} {head inside : List Char}
      (starts : Head 0 tag line head) (holds : Elements line children inside) :
      WrittenAs (.node tag line children) ('(' :: (head ++ (inside ++ [')'])))

/-- A tag that can be written in a head: it has characters, none of which ends a word, and nothing
else. -/
structure Tag.Writable (tag : Tag) : Prop where
  nonempty : tag.name.sourceChars ≠ []
  undelimited : ∀ c ∈ tag.name.sourceChars, Reader.isDelimiter c = false
  spelled : tag.name.IsUtf8

/-- What a tree is made of that has a written form: the tags are words, the lines fit into 64 bits
and the atoms have a written form. -/
structure Tree.Writable (t : Tree) : Prop where
  tags : ∀ {tag : Tag} {line : Int} {children : List Tree}, t.HasPart (.node tag line children) →
    tag.Writable
  lines : ∀ {tag : Tag} {line : Int} {children : List Tree}, t.HasPart (.node tag line children) →
    fitsInt64 line
  atoms : t.AtomsWritable

theorem Tree.Writable.child {tag : Tag} {line : Int} {children : List Tree}
    (h : (Tree.node tag line children).Writable) {u : Tree} (mem : u ∈ children) : u.Writable where
  tags part := h.tags (.head mem part)
  lines part := h.lines (.head mem part)
  atoms a part := h.atoms a (.head mem part)

mutual

/-- The text of a tree with every line and with single blanks. -/
def Tree.written : Tree → Text
  | .atom a => a.rendered
  | .node tag line children =>
    "(" ++ tag.name ++ ":" ++ Text.ofInt line ++ Tree.writtenAll children ++ ")"

/-- The texts of trees with a blank in front of each. -/
def Tree.writtenAll : List Tree → Text
  | [] => []
  | t :: ts => " " ++ t.written ++ Tree.writtenAll ts

end

/-- An atom is rendered in characters, also if it denotes bytes that are none. -/
theorem Atom.ofChars_sourceChars_rendered (a : Atom) :
    Text.ofChars a.rendered.sourceChars = a.rendered := by
  obtain ⟨cs, eq⟩ : ∃ cs, a.rendered = Text.ofChars cs := by
    cases a with
    | sym name => exact ⟨name.toList, rfl⟩
    | int digits => exact ⟨digits.toList, rfl⟩
    | float digits => exact ⟨digits.toList, rfl⟩
    | str value => exact ⟨Quoted.encode value, rfl⟩
    | re source =>
      refine ⟨'/' :: (source.toList ++ ['/']), ?_⟩
      rw [← List.singleton_append, Text.ofChars_append, Text.ofChars_append, ← List.append_assoc]
      rfl
    | nil => exact ⟨"nil".toList, rfl⟩
  rw [eq, Text.sourceChars_ofChars]

/-- The text of trees is one of the ways to write them. -/
theorem elements_writtenAll (outer : Int) :
    ∀ ts : List Tree, (∀ u ∈ ts, u.Writable) →
      ∃ text, Tree.writtenAll ts = Text.ofChars text ∧ Elements outer ts text
  | [], _ => ⟨[], rfl, .nil⟩
  | .atom a :: ts, writable => by
    obtain ⟨text, eq, more⟩ := elements_writtenAll outer ts (List.forall_mem_cons.1 writable).2
    refine ⟨_, ?_, .atom (.mk (c := ' ') rfl .nil) more⟩
    rw [Tree.writtenAll, Tree.written, eq, Text.ofChars_append, Text.ofChars_append,
      Atom.ofChars_sourceChars_rendered, List.append_assoc]
    rfl
  | .node tag line children :: ts, writable => by
    obtain ⟨first, later⟩ := List.forall_mem_cons.1 writable
    obtain ⟨inside, eqInside, holds⟩ :=
      elements_writtenAll line children fun u mem => first.child mem
    obtain ⟨text, eq, more⟩ := elements_writtenAll outer ts later
    refine ⟨_, ?_, .node (.mk (c := ' ') rfl .nil) .full holds more⟩
    rw [Tree.writtenAll, Tree.written, eq, eqInside,
      ← (first.tags .refl).spelled.ofChars_sourceChars, Text.sourceChars_ofChars]
    simp [Text.ofChars, Text.ofString, Text.ofInt]

/-- The text of a node is one of the ways to write it. -/
theorem writtenAs_written {tag : Tag} {line : Int} {children : List Tree}
    (writable : (Tree.node tag line children).Writable) :
    (Tree.node tag line children).WrittenAs (Tree.node tag line children).written.sourceChars := by
  obtain ⟨inside, eq, holds⟩ := elements_writtenAll line children fun u mem => writable.child mem
  have text : (Tree.node tag line children).written = Text.ofChars
      ('(' :: (tag.name.sourceChars ++ ':' :: (toString line).toList ++ (inside ++ [')']))) := by
    rw [Tree.written, eq, ← (writable.tags .refl).spelled.ofChars_sourceChars,
      Text.sourceChars_ofChars]
    simp [Text.ofChars, Text.ofString, Text.ofInt]
  rw [text, Text.sourceChars_ofChars]
  exact .node .full holds

/-! ## The machine on a layout -/

namespace Reader

/-- The machine answers a text with a tree, whatever place of a text it has reached. -/
def Reads (frames : List Frame) (roots : List Tree) (mode : Mode) (text : List Char) (t : Tree) :
    Prop :=
  ∀ position, (do (← text.foldlM State.step ⟨position, frames, roots, mode⟩).finish) = .ok t

/-- The text goes on with a character that ends a word, a slash or the head of a node. -/
def EndsElement : List Char → Prop
  | [] => False
  | c :: _ => isBlank c ∨ c = ')'

section

variable {frames frames' outer : List Frame} {f : Frame} {roots roots' : List Tree}
  {mode mode' : Mode} {c : Char} {text rest taken : List Char} {t : Tree}

/-- The step lemma: an answer behind a character is one in front of it. -/
theorem reads_cons
    (stepped : ∀ position, State.step ⟨position, frames, roots, mode⟩ c =
      .ok ⟨position.after c, frames', roots', mode'⟩)
    (more : Reads frames' roots' mode' rest t) : Reads frames roots mode (c :: rest) t := by
  intro position
  rw [List.foldlM_cons, stepped]
  exact more _

/-- A character that is taken alike in two configurations has the same answer in both. -/
theorem reads_of_same_step
    (same : ∀ position, State.step ⟨position, frames, roots, mode⟩ c =
      State.step ⟨position, frames', roots, mode'⟩ c)
    (more : Reads frames' roots mode' (c :: rest) t) : Reads frames roots mode (c :: rest) t := by
  intro position
  rw [List.foldlM_cons, same, ← List.foldlM_cons]
  exact more position

theorem exists_cons_of_endsElement (ends : EndsElement rest) : ∃ c more, rest = c :: more := by
  cases rest with
  | nil => cases ends
  | cons c more => exact ⟨c, more, rfl⟩

theorem endsElement_close (rest : List Char) : EndsElement (')' :: rest) := Or.inr rfl

theorem endsElement_append {line : Int} {ts : List Tree} (elements : Elements line ts text)
    (ends : EndsElement rest) : EndsElement (text ++ rest) := by
  cases elements with
  | nil => exact ends
  | atom before _ | node before _ _ _ =>
    obtain ⟨is, _⟩ := before
    exact Or.inl is

theorem isDelimiter_of_endsElement (ends : EndsElement (c :: rest)) : isDelimiter c = true := by
  rcases ends with blank | rfl
  · simp [isDelimiter, blank]
  · rfl

/-! ### Gaps -/

theorem ne_of_isBlank (is : isBlank c = true) {d : Char} (other : isBlank d = false) : c ≠ d := by
  rintro rfl
  rw [is] at other
  cases other

theorem reads_comment (oneLine : '\n' ∉ text) (more : Reads frames roots .blank rest t) :
    Reads frames roots (.comment false) (text ++ '\n' :: rest) t := by
  induction text with
  | nil => exact reads_cons (fun _ => rfl) more
  | cons c text ih =>
    obtain ⟨here, later⟩ := not_or.1 (mt List.mem_cons.2 oneLine)
    refine reads_cons (fun position => ?_) (ih later)
    simp only [State.step, if_neg (Ne.symm here)]
    rfl

theorem reads_gap (gap : Gap text) (more : Reads frames roots .blank rest t) :
    Reads frames roots .blank (text ++ rest) t := by
  induction gap with
  | nil => exact more
  | blank is _ ih =>
    refine reads_cons (fun position => ?_) ih
    simp only [State.step, State.stepBlank, if_neg (ne_of_isBlank is (d := ';') rfl), if_pos is]
    rfl
  | @comment note rest oneLine _ ih =>
    rw [List.cons_append, List.append_assoc, List.cons_append]
    exact reads_cons (fun _ => rfl) (reads_comment oneLine ih)

theorem reads_separator (separator : Separator text) (more : Reads frames roots .blank rest t) :
    Reads frames roots .blank (text ++ rest) t := by
  obtain ⟨is, gap⟩ := separator
  exact reads_gap (.blank is gap) more

/-! ### Atoms -/

/-- The frame with one more child. -/
def Frame.push (f : Frame) (u : Tree) : Frame := { f with children := u :: f.children }

/-- A mode that takes the characters of a word. -/
def Collects (mode : List Char → Mode) : Prop :=
  ∀ (s : State) (taken : List Char) (c : Char), isDelimiter c = false →
    (s.enter (mode taken)).step c = .ok ((s.advance c).enter (mode (c :: taken)))

theorem collects_word : Collects .word := by
  intro s taken c plain
  simp only [State.step, State.enter, plain, Bool.false_eq_true, if_false]
  rfl

theorem collects_head : Collects .head := by
  intro s taken c plain
  simp only [State.step, State.enter, plain, Bool.false_eq_true, if_false]
  rfl

theorem reads_plain {mode : List Char → Mode} (collects : Collects mode)
    (plain : ∀ c ∈ text, isDelimiter c = false)
    (more : Reads frames roots (mode (text.reverse ++ taken)) rest t) :
    Reads frames roots (mode taken) (text ++ rest) t := by
  induction text generalizing taken with
  | nil => exact more
  | cons c text ih =>
    obtain ⟨here, later⟩ := List.forall_mem_cons.1 plain
    rw [List.reverse_cons, List.append_assoc] at more
    refine reads_cons (fun position => ?_) (ih later more)
    exact collects ⟨position, frames, roots, .blank⟩ taken c here

theorem reads_word (is : IsWord text) (ends : EndsElement rest)
    (more : Reads (f.push (.atom (Atom.ofWord text)) :: outer) roots .blank rest t) :
    Reads (f :: outer) roots .blank (text ++ rest) t := by
  obtain ⟨d, rest, rfl⟩ := exists_cons_of_endsElement ends
  cases text with
  | nil => exact absurd rfl is.nonempty
  | cons c text =>
    by_cases slash : c = '/'
    -- a slash alone is a word because of what follows it
    · obtain ⟨rfl, rfl⟩ : c = '/' ∧ text = [] := by
        simpa [slash] using is.slash (congrArg some slash)
      refine reads_cons (fun _ => rfl) (reads_of_same_step (fun position => ?_) more)
      have stops : isBlank d = true ∨ d = ')' := ends
      simp only [State.step, if_pos stops]
      rfl
    · obtain ⟨here, later⟩ := List.forall_mem_cons.1 is.plain
      have word : Reads (f :: outer) roots (.word [c]) (text ++ d :: rest) t := by
        refine reads_plain collects_word later (reads_of_same_step (fun position => ?_) more)
        simp only [State.step, isDelimiter_of_endsElement ends, if_true]
        rw [List.reverse_append, List.reverse_reverse]
        rfl
      refine reads_cons (fun position => ?_) word
      simp only [isDelimiter, Bool.or_eq_false_iff, beq_eq_false_iff_ne] at here
      simp [State.step, State.stepBlank, here, slash, State.advance, State.enter]

/-- A mode that takes what stands between two marks, where a backslash hides the character behind
it. -/
structure Quotes (mark : Char) (mode : List Char → Bool → Mode) : Prop where
  plain : ∀ (s : State) (taken : List Char) (c : Char), c ≠ mark → c ≠ '\\' →
    (s.enter (mode taken false)).step c = .ok ((s.advance c).enter (mode (c :: taken) false))
  escape : ∀ (s : State) (taken : List Char),
    (s.enter (mode taken false)).step '\\' =
      .ok ((s.advance '\\').enter (mode ('\\' :: taken) true))
  escaped : ∀ (s : State) (taken : List Char) (c : Char),
    (s.enter (mode taken true)).step c = .ok ((s.advance c).enter (mode (c :: taken) false))

theorem quotes_string : Quotes '"' .string where
  plain s taken c noMark noEscape := by
    simp only [State.step, State.enter, State.stepString, if_neg noMark, Bool.false_eq_true,
      if_false, beq_false_of_ne noEscape]
    rfl
  escape _ _ := rfl
  escaped _ _ _ := rfl

theorem quotes_regexp : Quotes '/' .regexp where
  plain s taken c noMark noEscape := by
    simp only [State.step, State.enter, State.stepRegexp, if_neg noMark, Bool.false_eq_true,
      if_false, beq_false_of_ne noEscape]
    rfl
  escape _ _ := rfl
  escaped _ _ _ := rfl

theorem reads_body {mark : Char} {mode : List Char → Bool → Mode} (quotes : Quotes mark mode)
    (body : Quoted.Body mark text)
    (more : Reads frames roots (mode (text.reverse ++ taken) false) rest t) :
    Reads frames roots (mode taken false) (text ++ rest) t := by
  induction body generalizing taken with
  | nil => exact more
  | plain noMark noEscape _ ih =>
    rw [List.reverse_cons, List.append_assoc] at more
    refine reads_cons (fun position => ?_) (ih more)
    exact quotes.plain ⟨position, frames, roots, .blank⟩ _ _ noMark noEscape
  | @escaped c text _ ih =>
    rw [List.reverse_cons, List.reverse_cons, List.append_assoc, List.append_assoc] at more
    have hidden : Reads frames roots (mode ('\\' :: taken) true) (c :: (text ++ rest)) t :=
      reads_cons (fun position => quotes.escaped ⟨position, frames, roots, .blank⟩ _ _) (ih more)
    exact reads_cons (fun position => quotes.escape ⟨position, frames, roots, .blank⟩ _) hidden

theorem reads_string (value : Text)
    (more : Reads (f.push (.atom (.str value)) :: outer) roots .blank rest t) :
    Reads (f :: outer) roots .blank (Quoted.encode value ++ rest) t := by
  rw [Quoted.encode, List.cons_append, List.append_assoc]
  refine reads_cons (fun _ => rfl) (reads_body quotes_string (Quoted.body_encodeBody value) ?_)
  refine reads_cons (fun position => ?_) more
  rw [List.append_nil]
  simp only [State.step, State.stepString, List.reverse_reverse, Quoted.decode_encodeBody]
  rfl

theorem reads_regexp (is : IsPattern text)
    (more : Reads (f.push (.atom (.re (String.ofList text))) :: outer) roots .blank rest t) :
    Reads (f :: outer) roots .blank ('/' :: (text ++ '/' :: rest)) t := by
  have closed : Reads (f :: outer) roots (.regexp text.reverse false) ('/' :: rest) t := by
    refine reads_cons (fun position => ?_) more
    simp only [State.step, State.stepRegexp, List.reverse_reverse]
    rfl
  have inner : Reads (f :: outer) roots (.regexp [] false) (text ++ '/' :: rest) t :=
    reads_body quotes_regexp is.body (by rwa [List.append_nil])
  -- the first character decides that the slash before it is not a word
  refine reads_cons (fun _ => rfl) ?_
  cases text with
  | nil => exact reads_of_same_step (fun _ => rfl) inner
  | cons c text =>
    obtain ⟨noBlank, noClose⟩ := is.start c rfl
    refine reads_of_same_step (fun position => ?_) inner
    simp [State.step, noBlank, noClose]
    rfl

theorem rendered_ofWord (word : List Char) : (Atom.ofWord word).rendered = Text.ofChars word := by
  have same : Text.ofString (String.ofList word) = Text.ofChars word := by
    rw [Text.ofString, String.toList_ofList]
  unfold Atom.ofWord
  split
  next nil =>
    rw [nil]
    rfl
  next =>
    split
    · exact same
    · split <;> exact same

/-- An atom is read back from its rendering. -/
theorem reads_atom {a : Atom} (writable : a.Writable) (ends : EndsElement rest)
    (more : Reads (f.push (.atom a) :: outer) roots .blank rest t) :
    Reads (f :: outer) roots .blank (a.rendered.sourceChars ++ rest) t := by
  cases writable with
  | @word word is =>
    rw [rendered_ofWord, Text.sourceChars_ofChars]
    exact reads_word is ends more
  | string value =>
    rw [Atom.rendered, Text.sourceChars_ofChars]
    exact reads_string value more
  | @regexp source is =>
    have text : (Atom.re (String.ofList source)).rendered =
        Text.ofChars ('/' :: (source ++ ['/'])) := by
      simp [Atom.rendered, Text.ofString, Text.ofChars]
    rw [text, Text.sourceChars_ofChars, List.cons_append, List.append_assoc]
    exact reads_regexp is more

/-! ### Nodes -/

theorem isDelimiter_of_mem_toString {n : Int} :
    ∀ c ∈ (toString n).toList, isDelimiter c = false := by
  intro c mem
  rcases Decimal.isDigit_or_eq_of_mem_toString c mem with digit | rfl
  · have range : 48 ≤ c.toNat ∧ c.toNat ≤ 57 := Char.isDigit_iff_toNat.1 digit
    have ne : ∀ d : Char, d.toNat < 48 ∨ 57 < d.toNat → (c == d) = false := by
      intro d outside
      refine beq_false_of_ne fun same => ?_
      rw [same] at range
      omega
    have noBlank : isBlank c = false := by
      simp only [isBlank, Bool.or_eq_false_iff, Bool.and_eq_false_iff, decide_eq_false_iff_not,
        beq_eq_false_iff_ne]
      omega
    simp only [isDelimiter, noBlank, ne '(' (by decide), ne ')' (by decide), ne '"' (by decide),
      ne ';' (by decide), Bool.or_self]
  · rfl

theorem bne_colon_of_notMem {cs : List Char} (h : ':' ∉ cs) : ∀ c ∈ cs, (c != ':') = true := by
  intro c mem
  exact bne_iff_ne.2 fun same => h (same ▸ mem)

theorem takeWhile_dropWhile_colon {line : List Char} (noColon : ':' ∉ line) (name : List Char) :
    (line ++ ':' :: name).takeWhile (· != ':') = line ∧
      (line ++ ':' :: name).dropWhile (· != ':') = ':' :: name := by
  have all := bne_colon_of_notMem noColon
  rw [List.takeWhile_append_of_pos all, List.dropWhile_append_of_pos all]
  simp

/-- The head of a node tells its tag and its line. -/
theorem ofHead?_of_head {line inherited : Int} {tag : Tag} {head : List Char}
    (starts : Head inherited tag line head) (writable : tag.Writable)
    (fits : fitsInt64 line) :
    Frame.ofHead? inherited head.reverse = some ⟨tag, line, []⟩ := by
  have nonempty := writable.nonempty
  have found : Tag.ofName (Text.ofChars tag.name.sourceChars) = tag := by
    rw [writable.spelled.ofChars_sourceChars, Tag.ofName_name]
  cases starts with
  | full =>
    -- the last colon is the one in front of the line, since a line has none
    have noColon : ':' ∉ (toString line).toList.reverse := by
      intro mem
      rcases Decimal.isDigit_or_eq_of_mem_toString _ (List.mem_reverse.1 mem) with digit | eq
      · exact absurd digit (by decide)
      · exact absurd eq (by decide)
    obtain ⟨digits, rest⟩ := takeWhile_dropWhile_colon noColon tag.name.sourceChars.reverse
    obtain ⟨c, before, eq⟩ := List.exists_cons_of_ne_nil (mt List.reverse_eq_nil_iff.1 nonempty)
    have name : (c :: before).reverse = tag.name.sourceChars := by rw [← eq, List.reverse_reverse]
    rw [Frame.ofHead?, List.reverse_append, List.reverse_cons, List.append_assoc,
      List.singleton_append, digits, rest, eq, List.reverse_reverse]
    simp only [name, Decimal.readInt64?_toString fits, found, Option.map_some]
  | bare same noColon =>
    obtain ⟨c, name, eq⟩ := List.exists_cons_of_ne_nil nonempty
    rw [eq, List.tail_cons] at noColon
    -- only the first character can be a colon, and nothing stands before it
    have short : (name.reverse ++ [c]).dropWhile (· != ':') = if c = ':' then [':'] else [] := by
      have all := bne_colon_of_notMem (mt List.mem_reverse.1 noColon)
      rw [List.dropWhile_append_of_pos all]
      by_cases colon : c = ':' <;> simp [colon]
    rw [← same, Frame.ofHead?, List.reverse_reverse, found, eq, List.reverse_cons, short]
    by_cases colon : c = ':'
    · rw [if_pos colon]
    · rw [if_neg colon]

theorem plain_of_head {line inherited : Int} {tag : Tag} {head : List Char}
    (starts : Head inherited tag line head)
    (plain : ∀ c ∈ tag.name.sourceChars, isDelimiter c = false) :
    ∀ c ∈ head, isDelimiter c = false := by
  cases starts with
  | full =>
    refine List.forall_mem_append.2 ⟨plain, List.forall_mem_cons.2 ⟨rfl, ?_⟩⟩
    exact isDelimiter_of_mem_toString
  | bare => exact plain

theorem exists_cons_of_head {line inherited : Int} {tag : Tag} {head : List Char}
    (starts : Head inherited tag line head) (nonempty : tag.name.sourceChars ≠ []) :
    ∃ c more, head = c :: more := by
  refine List.exists_cons_of_ne_nil ?_
  cases starts with
  | full => exact fun empty => nonempty (List.append_eq_nil_iff.1 empty).1
  | bare => exact nonempty

/-- A head opens a node. -/
theorem reads_open {tag : Tag} {line : Int} {head : List Char}
    (starts : Head ((frames.head?.map Frame.line).getD 0) tag line head)
    (writable : tag.Writable) (fits : fitsInt64 line) (ends : EndsElement rest)
    (more : Reads (⟨tag, line, []⟩ :: frames) roots .blank rest t) :
    Reads frames roots .blank ('(' :: (head ++ rest)) t := by
  have frame := ofHead?_of_head starts writable fits
  have plain := plain_of_head starts writable.undelimited
  obtain ⟨c, head, rfl⟩ := exists_cons_of_head starts writable.nonempty
  obtain ⟨here, later⟩ := List.forall_mem_cons.1 plain
  obtain ⟨d, rest, rfl⟩ := exists_cons_of_endsElement ends
  have inner : Reads frames roots (.head [c]) (head ++ d :: rest) t := by
    refine reads_plain collects_head later (reads_of_same_step (fun position => ?_) more)
    rw [List.reverse_cons] at frame
    simp only [State.step, isDelimiter_of_endsElement ends, if_true, State.openNode, frame]
    rfl
  refine reads_cons (fun _ => rfl) (reads_cons (fun position => ?_) inner)
  simp only [isDelimiter, Bool.or_eq_false_iff, beq_eq_false_iff_ne] at here
  simp [State.step, here, State.advance, State.enter]

theorem foldl_push (ts : List Tree) (f : Frame) :
    ts.foldl Frame.push f = ⟨f.tag, f.line, ts.reverse ++ f.children⟩ := by
  induction ts generalizing f with
  | nil => rfl
  | cons u ts ih =>
    rw [List.foldl_cons, ih, List.reverse_cons, List.append_assoc]
    rfl

theorem close_foldl_push (tag : Tag) (line : Int) (ts : List Tree) :
    (ts.foldl Frame.push ⟨tag, line, []⟩).close = .node tag line ts := by
  rw [foldl_push, Frame.close, List.append_nil, List.reverse_reverse]

/-- The run lemma: inside a node, each element of a layout becomes a child. -/
theorem reads_elements {line : Int} {ts : List Tree} (elements : Elements line ts text)
    (writable : ∀ u ∈ ts, u.Writable) (here : f.line = line) (ends : EndsElement rest)
    (more : Reads (ts.foldl Frame.push f :: outer) roots .blank rest t) :
    Reads (f :: outer) roots .blank (text ++ rest) t := by
  induction elements generalizing f outer rest with
  | nil => exact more
  | atom before elements ih =>
    obtain ⟨first, later⟩ := List.forall_mem_cons.1 writable
    rw [List.append_assoc, List.append_assoc]
    have next := ih (f := f.push _) later here ends more
    exact reads_separator before
      (reads_atom (first.atoms _ .refl) (endsElement_append elements ends) next)
  | @node around line tag children ts gap head inside text before starts holds elements inner ih =>
    subst here
    obtain ⟨first, later⟩ := List.forall_mem_cons.1 writable
    -- the machine is followed from the last piece back to the first: what comes behind the node,
    -- the closing parenthesis, the children, the head, the gap
    have next := ih (f := f.push (.node tag line children)) later rfl ends more
    have closing : Reads (children.foldl Frame.push ⟨tag, line, []⟩ :: f :: outer) roots .blank
        (')' :: (text ++ rest)) t := by
      rw [← close_foldl_push] at next
      exact reads_cons (fun _ => rfl) next
    have body := inner (fun u mem => first.child mem) rfl (endsElement_close _) closing
    have opening : Reads (f :: outer) roots .blank _ t :=
      reads_open starts (first.tags .refl) (first.lines .refl)
        (endsElement_append holds (endsElement_close _)) body
    simpa using reads_separator before opening

/-- A node is read back from every way to write it. -/
theorem reads_writtenAs (written : t.WrittenAs text) (writable : t.Writable) :
    Reads [] [] .blank text t := by
  obtain @⟨tag, line, children, head, inside, starts, holds⟩ := written
  have finished : Reads [] [.node tag line children] .blank [] (.node tag line children) :=
    fun _ => rfl
  have closing : Reads [children.foldl Frame.push ⟨tag, line, []⟩] [] .blank [')']
      (.node tag line children) := by
    refine reads_cons (fun position => ?_) finished
    rw [← close_foldl_push tag line children]
    rfl
  have body := reads_elements holds (fun u mem => writable.child mem) rfl (endsElement_close _)
    closing
  exact reads_open starts (writable.tags .refl) (writable.lines .refl)
    (endsElement_append holds (endsElement_close _)) body

end

end Reader

/-! ## Reading back -/

/-- An atom that reading some text can produce. -/
def Atom.IsRead (a : Atom) : Prop :=
  ∃ (source : Text) (t : Tree), Tree.read source.sourceChars = .ok t ∧ t.HasPart (.atom a)

/-- The text of a tag is not empty, and has no blanks, parentheses, double quotes or semicolons. -/
def Tag.IsPlain (tag : Tag) : Prop :=
  tag.name ≠ [] ∧ ∀ c ∈ tag.name.sourceChars, isBlank c = false ∧ c ∉ ['(', ')', '"', ';']

instance (tag : Tag) : Decidable tag.IsPlain :=
  @instDecidableAnd _ _ inferInstance (List.decidableBAll _ _)

/-- Plain characters are what can be written in a head. -/
theorem Tag.IsPlain.writable {tag : Tag} (plain : tag.IsPlain) (spelled : tag.name.IsUtf8) :
    tag.Writable := by
  refine ⟨fun none => plain.1 ?_, fun c mem => ?_, spelled⟩
  · rw [← spelled.ofChars_sourceChars, none]
    rfl
  · obtain ⟨noBlank, others⟩ := plain.2 c mem
    simp only [List.mem_cons, List.not_mem_nil, or_false, not_or] at others
    simp [Reader.isDelimiter, noBlank, others]

theorem Tree.read_of_writtenAs {t : Tree} {source : List Char} (written : t.WrittenAs source)
    (writable : t.Writable) : Tree.read source = .ok t :=
  Reader.reads_writtenAs written writable _

/-- Every atom with a written form is read, as the only child of a node. -/
theorem Atom.isRead_of_writable {a : Atom} (writable : a.Writable) : a.IsRead := by
  have plain : (Tag.known .lit).IsPlain := by decide
  let t : Tree := .node (.known .lit) 0 [.atom a]
  have parts : ∀ {tag : Tag} {line : Int} {children : List Tree},
      t.HasPart (.node tag line children) → tag = .known .lit ∧ line = 0 := by
    intro tag line children part
    obtain ⟨rfl, rfl, -⟩ : tag = .known .lit ∧ line = 0 ∧ children = [.atom a] := by
      simpa [t, Tree.hasPart_node_iff, Tree.hasPart_atom_iff] using part
    exact ⟨rfl, rfl⟩
  have fits : t.Writable := by
    refine ⟨fun part => ?_, fun part => ?_, Tree.atomsWritable_node fun u mem => ?_⟩
    · exact (parts part).1 ▸ plain.writable ⟨_, rfl⟩
    · exact (parts part).2 ▸ rfl
    · exact List.mem_singleton.1 mem ▸ Tree.atomsWritable_atom writable
  exact ⟨t.written, t, Tree.read_of_writtenAs (writtenAs_written fits) fits,
    .single (List.mem_singleton_self _)⟩

theorem Atom.writable_of_isRead {a : Atom} (read : a.IsRead) : a.Writable := by
  obtain ⟨source, t, read, part⟩ := read
  exact Tree.atomsWritable_of_read read a part

/-- A node whose tags are plain characters is read back from its text and from every other way to
write it, whatever its lines and its atoms. -/
theorem Tree.read_back (t : Tree) (isNode : t.isNode)
    (tags : ∀ tag line children, t.HasPart (.node tag line children) → tag.IsPlain)
    (spelled : ∀ tag line children, t.HasPart (.node tag line children) → tag.name.IsUtf8)
    (lines : ∀ tag line children, t.HasPart (.node tag line children) → fitsInt64 line)
    (atoms : ∀ a, t.HasPart (.atom a) → a.IsRead) :
    Tree.read t.written.sourceChars = .ok t ∧ t.WrittenAs t.written.sourceChars ∧
      (∀ source, t.WrittenAs source → Tree.read source = .ok t) ∧
      ∀ value, (Atom.str value).IsRead := by
  have writable : t.Writable :=
    ⟨fun part => (tags _ _ _ part).writable (spelled _ _ _ part), fun part => lines _ _ _ part,
      fun a part => Atom.writable_of_isRead (atoms a part)⟩
  have written : t.WrittenAs t.written.sourceChars := by
    cases t with
    | node tag line children => exact writtenAs_written writable
    | atom a => cases isNode
  refine ⟨read_of_writtenAs written writable, written, ?_, ?_⟩
  · exact fun source written => read_of_writtenAs written writable
  · exact fun value => Atom.isRead_of_writable (.string value)

/-- A node with a colon at both ends of a tag, the least line, bytes that are no character, a slash
that is a word and a regular expression that starts with one. -/
def slashTree : Tree :=
  .node (.known .call) 3
    [.node (Tag.ofName ":op:") (-9223372036854775808) [.atom (.str [0xFF, 0x22]), .atom (.sym "/")],
      .atom (.re "\\/)"), .node (Tag.ofName ":nil") 3 [.atom .nil]]

theorem slashTree_read_back :
    Tree.read
        "(call:3 ; (\n (:op::-9223372036854775808 \"\\xff\\\"\" /)\t/\\/)/ (:nil nil))".toList =
      .ok slashTree := by
  have nodes : ∀ {tag line children}, slashTree.HasPart (.node tag line children) →
      tag.IsPlain ∧ tag.name.IsUtf8 ∧ fitsInt64 line := by
    intro tag line children part
    simp only [slashTree, Tree.hasPart_node_iff, Tree.hasPart_atom_iff, List.mem_cons,
      List.not_mem_nil, exists_eq_or_imp, exists_eq_left, Tree.node.injEq, reduceCtorEq, or_false,
      false_or] at part
    rcases part with ⟨rfl, rfl, -⟩ | ⟨rfl, rfl, -⟩ | ⟨rfl, rfl, -⟩
    · exact ⟨by decide +kernel, ⟨"call".toList, rfl⟩, by decide⟩
    · exact ⟨by decide +kernel, ⟨":op:".toList, Tag.name_ofName _⟩, by decide⟩
    · exact ⟨by decide +kernel, ⟨":nil".toList, Tag.name_ofName _⟩, by decide⟩
  have read : ∀ a, slashTree.HasPart (.atom a) → a.IsRead := by
    intro a part
    simp only [slashTree, Tree.hasPart_node_iff, Tree.hasPart_atom_iff, List.mem_cons,
      List.not_mem_nil, exists_eq_or_imp, exists_eq_left, Tree.atom.injEq, reduceCtorEq, or_false,
      false_or, or_assoc] at part
    have slash : IsWord ['/'] := ⟨by decide, List.forall_mem_singleton.2 rfl, by decide⟩
    have letters : ∀ c ∈ ['n', 'i', 'l'], Reader.isDelimiter c = false :=
      List.forall_mem_cons.2 ⟨rfl, List.forall_mem_cons.2 ⟨rfl, List.forall_mem_singleton.2 rfl⟩⟩
    have empty : IsWord ['n', 'i', 'l'] := ⟨by decide, letters, by decide⟩
    have body : Quoted.Body '/' ['\\', '/', ')'] := .escaped (.plain (by decide) (by decide) .nil)
    rcases part with rfl | rfl | rfl | rfl
    · exact Atom.isRead_of_writable (.string _)
    · exact Atom.isRead_of_writable (.word slash)
    · exact Atom.isRead_of_writable (.regexp ⟨body, fun c first => by cases first; decide⟩)
    · exact Atom.isRead_of_writable (.word empty)
  have blank : Separator [' '] := .mk rfl .nil
  have comment : Separator (' ' :: ';' :: ([' ', '('] ++ ['\n', ' '])) :=
    .mk rfl (.comment (by decide) (.blank rfl .nil))
  have tab : Separator ['\t'] := .mk rfl .nil
  have layout : slashTree.WrittenAs _ :=
    .node .full (.node comment .full (.atom blank (.atom blank .nil))
      (.atom tab (.node blank (.bare rfl (by decide)) (.atom blank .nil) .nil)))
  have back := (Tree.read_back slashTree rfl (fun _ _ _ part => (nodes part).1)
    (fun _ _ _ part => (nodes part).2.1) (fun _ _ _ part => (nodes part).2.2) read).2.2.1 _ layout
  exact Eq.trans (congrArg Tree.read (by decide +kernel)) back

/-- A node whose tag is a byte that is part of no character. -/
def strayTree : Tree := .node (Tag.ofName [0xFF]) 0 []

/-- A plain tag is not enough: the byte is written as it is, and read as the replacement
character. -/
theorem strayTree_not_read_back : strayTree.isNode ∧
    (∀ tag line children, strayTree.HasPart (.node tag line children) →
      tag.IsPlain ∧ fitsInt64 line) ∧
    (∀ a, strayTree.HasPart (.atom a) → a.IsRead) ∧
    strayTree.written = [0x28, 0xFF, 0x3A, 0x30, 0x29] ∧
    Tree.read strayTree.written.sourceChars = .ok (.node (Tag.ofName "\uFFFD") 0 []) ∧
    Tree.read strayTree.written.sourceChars ≠ .ok strayTree := by
  have read : Tree.read strayTree.written.sourceChars
      = .ok (.node (Tag.ofName "\uFFFD") 0 []) := rfl
  refine ⟨rfl, ?_, ?_, rfl, read, ?_⟩
  · intro tag line children part
    obtain ⟨rfl, rfl, -⟩ : tag = Tag.ofName [0xFF] ∧ line = 0 ∧ children = [] := by
      simpa [strayTree, Tree.hasPart_node_iff] using part
    decide
  · intro a part
    simp [strayTree, Tree.hasPart_node_iff] at part
  · rw [read]
    intro same
    injection same with same
    injection same with same
    have names := congrArg Tag.name same
    rw [Tag.name_ofName, Tag.name_ofName] at names
    exact absurd names (by decide)

end CodeSmell
