import CodeSmell.Proofs.Yaml.FlatScalars

/-!
# Literal blocks

A text with several lines is written as a literal block, one line below the other. The reader finds
the indentation of the block at its first line, unless that starts with a space and the header gives
the indentation. It takes the lines one by one (`blockFrom_lines`) and stops at the first line that
is indented less, and then the mark in the header decides which line breaks at the end belong to the
text (`readBlockScalar_literal`).
-/

set_option autoImplicit false

namespace CodeSmell

namespace Yaml

/-- A text that is read back from a literal block: its first line is not empty and does not start
with a tab. -/
structure IsLiteral (cs : List Char) : Prop where
  block : allowsBlock cs = true
  first : ∀ c ∈ cs.head?, isBreak c = false ∧ c ≠ '\t'

/-- Line breaks in a literal block stand for themselves. -/
theorem IsLiteral.breakText {cs : List Char} (h : IsLiteral cs) :
    ∀ c ∈ cs, isBreak c = true → breakText c = c := by
  have block := h.block
  simp only [allowsBlock, hasSpecial, Bool.and_eq_true, Bool.not_eq_true', List.any_eq_false]
    at block
  intro c mem broken
  have special := block.2 c mem
  simp only [isBreak, Bool.or_eq_true, decide_eq_true_eq] at broken
  rcases broken with (((rfl | rfl) | rfl) | rfl) | rfl
  · rfl
  · exact absurd (by decide) special
  · exact absurd (by decide) special
  · rfl
  · rfl

/-! ## Lines -/

namespace BlockText

/-- All that has been read of a block scalar, latest first. -/
def all (b : BlockText) : List Char := b.blankLines ++ (b.ending.toList ++ b.taken)

/-- Inside a line nothing is kept apart. -/
def Fits (inLine : Bool) (b : BlockText) : Prop :=
  inLine = true → b.ending = none ∧ b.blankLines = []

theorem Fits.all_eq_taken {b : BlockText} (h : b.Fits true) : b.all = b.taken := by
  obtain ⟨ending, blankLines⟩ := h rfl
  simp [all, ending, blankLines]

theorem all_startLine (b : BlockText) (c : Char) : (b.startLine true c).all = c :: b.all := rfl

/-- With all line breaks at the end kept, all that has been read is the text. -/
theorem finish_keep (b : BlockText) : b.finish .keep = String.ofList b.all.reverse := by
  simp [finish, all]

/-- With one line break at the end kept, that is so unless blank lines follow. -/
theorem finish_clip {b : BlockText} (none : b.blankLines = []) :
    b.finish .clip = String.ofList b.all.reverse := by
  simp [finish, all, none]

end BlockText

variable (header : BlockHeader) (inner indent : Nat) (start : Cursor)

/-- The margin of a line is passed over. -/
theorem blockFrom_margin (b : BlockText) (margin : BlockIndent) (n line column index : Nat)
    (rest : List Char) (within : ∀ i < n, margin.isMargin (column + i) = true) :
    blockFrom header inner start margin b false line column index (List.replicate n ' ' ++ rest)
      = blockFrom header inner start margin b false line (column + n) (index + n) rest := by
  induction n generalizing column index with
  | zero => rfl
  | succ n ih =>
    have here : margin.isMargin column = true := within 0 (Nat.succ_pos n)
    rw [List.replicate_succ, List.cons_append, blockFrom]
    simp only [here, Bool.false_eq_true, if_false, decide_true, Bool.and_self, if_true]
    rw [ih (column + 1) (index + 1)]
    · simp only [Nat.add_comm, Nat.add_left_comm]
    · intro i less
      have later := within (i + 1) (Nat.succ_lt_succ less)
      rwa [Nat.add_comm i 1, ← Nat.add_assoc] at later

/-- A line break of a literal block, behind a line or behind another break. -/
theorem blockFrom_break (b : BlockText) {inLine : Bool} (fits : b.Fits inLine) {c : Char}
    (broken : isBreak c = true) (same : breakText c = c) (line column index : Nat) :
    ∃ b' : BlockText, b'.all = c :: b.all ∧ (inLine = true → b' = { b with ending := some c }) ∧
      ∀ rest, blockFrom header inner start (.known indent) b inLine line column index (c :: rest)
        = blockFrom header inner start (.known indent) b' false (line + 1) 0 (index + 1) rest := by
  have notGap : c ≠ ' ' ∧ c ≠ '\t' := by
    constructor <;> rintro rfl <;> cases broken
  cases inLine with
  | true =>
    obtain ⟨ending, blankLines⟩ := fits rfl
    refine ⟨{ b with ending := some c }, ?_, fun _ => rfl, fun rest => ?_⟩
    · simp [BlockText.all, ending, blankLines]
    · rw [blockFrom]
      simp [broken, same]
  | false =>
    refine ⟨{ b with blankLines := c :: b.blankLines }, rfl, fun absent => ?_, fun rest => ?_⟩
    · cases absent
    · rw [blockFrom]
      simp [broken, same, notGap.1, notGap.2, BlockIndent.meet]

/-- A character of a line of a literal block, with the margin in front of it at the start. -/
theorem blockFrom_char (literal : header.literal = true) (b : BlockText) {inLine : Bool}
    (fits : b.Fits inLine) {c : Char} (word : isBreak c = false) (line column index : Nat)
    (atStart : inLine = false → column = 0) :
    ∃ (b' : BlockText) (column' index' : Nat), b'.all = c :: b.all ∧ b'.Fits true ∧
      ∀ rest, blockFrom header inner start (.known indent) b inLine line column index
          ((if !inLine then List.replicate indent ' ' else []) ++ c :: rest)
        = blockFrom header inner start (.known indent) b' true line column' index' rest := by
  cases inLine with
  | true =>
    obtain ⟨ending, blankLines⟩ := fits rfl
    refine ⟨{ b with taken := c :: b.taken }, column + 1, index + 1, ?_, fun _ => fits rfl,
      fun rest => ?_⟩
    · simp [BlockText.all, ending, blankLines]
    · rw [if_neg (by decide), List.nil_append, blockFrom]
      simp [word]
  | false =>
    refine ⟨b.startLine true c, indent + 1, index + indent + 1, b.all_startLine c,
      fun _ => ⟨rfl, rfl⟩, fun rest => ?_⟩
    rw [if_pos (by decide), atStart rfl, blockFrom_margin header inner start b (.known indent)
      indent line 0 index _ fun i less => by simpa [BlockIndent.isMargin] using less, blockFrom]
    simp [BlockIndent.isMargin, BlockIndent.meet, BlockIndent.settle, word, literal]

theorem toList_literalLines_cons (atStart : Bool) (c : Char) (cs : List Char) :
    (literalLines indent atStart false (c :: cs)).toList
      = if isBreak c then c :: (literalLines indent true false cs).toList
        else (if atStart then List.replicate indent ' ' else []) ++
          c :: (literalLines indent false false cs).toList := by
  rw [literalLines]
  cases isBreak c with
  | true => simp [String.toList_append]
  | false =>
    cases atStart with
    | true => simp [String.toList_append, toList_spaces]
    | false => simp [String.toList_append]

/-- The lines of a literal block are taken one by one. `before` is the character in front of them;
behind a break the next line starts at column zero. -/
theorem blockFrom_lines (literal : header.literal = true) (cs : List Char)
    (kept : ∀ c ∈ cs, isBreak c = true → breakText c = c) (before : Char) (b : BlockText)
    (fits : b.Fits !isBreak before) (line column index : Nat)
    (atStart : isBreak before = true → column = 0) :
    ∃ (b' : BlockText) (line' column' index' : Nat), b'.all = cs.reverse ++ b.all ∧
      b'.Fits (!isBreak (cs.getLast?.getD before)) ∧
      ∀ rest, blockFrom header inner start (.known indent) b (!isBreak before) line column index
          ((literalLines indent (isBreak before) false cs).toList ++ rest)
        = blockFrom header inner start (.known indent) b' (!isBreak (cs.getLast?.getD before))
          line' column' index' rest := by
  induction cs generalizing before b line column index with
  | nil =>
    refine ⟨b, line, column, index, rfl, fits, fun rest => ?_⟩
    simp [literalLines]
  | cons c cs ih =>
    obtain ⟨keptHere, kept⟩ := List.forall_mem_cons.1 kept
    rw [List.getLast?_cons, Option.getD_some]
    cases broken : isBreak c with
    | true =>
      obtain ⟨b₁, all₁, -, read₁⟩ := blockFrom_break header inner indent start b fits broken
        (keptHere broken) line column index
      obtain ⟨b', line', column', index', all', fits', read'⟩ := ih kept c b₁
        (fun inLine => by rw [broken] at inLine; cases inLine) (line + 1) 0 (index + 1) fun _ => rfl
      refine ⟨b', line', column', index', ?_, fits', fun rest => ?_⟩
      · rw [all', all₁, List.reverse_cons, List.append_assoc]
        rfl
      · rw [toList_literalLines_cons, broken, if_pos rfl, List.cons_append, read₁, ← read' rest,
          broken]
        rfl
    | false =>
      obtain ⟨b₁, column₁, index₁, all₁, fits₁, read₁⟩ := blockFrom_char header inner indent start
        literal b fits broken line column index fun h => atStart (by simpa using h)
      obtain ⟨b', line', column', index', all', fits', read'⟩ := ih kept c b₁
        (by rwa [broken]) line column₁ index₁ fun h => by rw [broken] at h; cases h
      refine ⟨b', line', column', index', ?_, fits', fun rest => ?_⟩
      · rw [all', all₁, List.reverse_cons, List.append_assoc]
        rfl
      · rw [toList_literalLines_cons, broken, if_neg Bool.false_ne_true, List.append_assoc,
          List.cons_append, ← read' rest, broken]
        rw [Bool.not_not] at read₁
        exact read₁ _

theorem toList_literalLines_concat (atStart : Bool) (cs : List Char) {c : Char}
    (broken : isBreak c = true) :
    (literalLines indent atStart false (cs ++ [c])).toList
      = (literalLines indent atStart false cs).toList ++ [c] := by
  induction cs generalizing atStart with
  | nil =>
    rw [List.nil_append, toList_literalLines_cons, if_pos broken]
    simp [literalLines]
  | cons d cs ih =>
    rw [List.cons_append, toList_literalLines_cons, toList_literalLines_cons]
    split
    · rw [ih, List.cons_append]
    · rw [ih, List.append_assoc, List.cons_append]

/-- A literal block ends before a line that is indented less. -/
theorem blockFrom_outside (b : BlockText) (line index : Nat) {j : Nat} (less : j < indent)
    {body : List Char} (starts : StartsToken body) :
    blockFrom header inner start (.known indent) b false line 0 index
        (List.replicate j ' ' ++ body)
      = .ok (b.finish header.chomping, ⟨body, line, j, index + j⟩) := by
  rw [blockFrom_margin header inner start b (.known indent) j line 0 index body fun i inside => by
    have inside : 0 + i < indent := by omega
    simpa [BlockIndent.isMargin] using inside, Nat.zero_add]
  cases body with
  | nil => rw [blockFrom]
  | cons c body =>
    obtain ⟨word, notBreak, -⟩ := starts c rfl
    have notGap : c ≠ ' ' ∧ c ≠ '\t' := by simpa [isGap] using word
    rw [blockFrom]
    simp [notGap.1, notGap.2, notBreak, BlockIndent.meet, BlockIndent.settle, Nat.ne_of_lt less]

/-! ## Headers -/

/-- What the header of a literal block says about line breaks at the end of a text. -/
def literalChomping (cs : List Char) : Chomping :=
  match cs.reverse with
  | [] => .strip
  | c :: before =>
    if !isBreak c then .strip
    else match before with
      | [] => .keep
      | d :: _ => if isBreak d then .keep else .clip

/-- The sign of a header. -/
def Chomping.sign : Chomping → List Char
  | .strip => ['-']
  | .clip => []
  | .keep => ['+']

theorem toList_literalMarks {cs : List Char} (h : IsLiteral cs) :
    (literalMarks cs).toList
      = (if cs.head? = some ' ' then ['4'] else []) ++ (literalChomping cs).sign := by
  have head : (cs.head?.any fun c => c = ' ' || isBreak c) = decide (cs.head? = some ' ') := by
    cases cs with
    | nil => rfl
    | cons c cs =>
      have word := (h.first c rfl).1
      simp [word]
  rw [literalMarks, literalChomping, head, String.toList_append]
  congr 1
  · by_cases space : cs.head? = some ' ' <;> simp [space]
  · cases cs.reverse with
    | nil => rfl
    | cons c before =>
      by_cases broken : isBreak c = true
      · cases before with
        | nil => simp [broken, Chomping.sign]
        | cons d _ => by_cases blank : isBreak d = true <;> simp [broken, blank, Chomping.sign]
      · simp [broken, Chomping.sign]

theorem literalChomping_word {c : Char} {cs : List Char}
    (word : isBreak (cs.getLast?.getD c) = false) : literalChomping (c :: cs) = .strip := by
  obtain ⟨front, same⟩ := List.getLast?_eq_some_iff.1 (List.getLast?_cons (a := c) (l := cs))
  rw [literalChomping, same, List.reverse_append]
  simp [word]

theorem literalChomping_break {c e : Char} {cs : List Char} (broken : isBreak e = true) :
    literalChomping (c :: (cs ++ [e]))
      = if isBreak (cs.getLast?.getD c) then .keep else .clip := by
  obtain ⟨front, same⟩ := List.getLast?_eq_some_iff.1 (List.getLast?_cons (a := c) (l := cs))
  rw [literalChomping, ← List.cons_append, same, List.reverse_append, List.reverse_append]
  simp [broken]

/-- The marks of a header are read up to the end of its line. -/
theorem headerMarks_sign (chomping : Chomping) (marked : Prop) [Decidable marked]
    (rest : List Char) (line column index : Nat) :
    ∃ column' index', headerMarks start ⟨true, .clip, none⟩
        ⟨(if marked then ['4'] else []) ++ chomping.sign ++ '\n' :: rest, line, column, index⟩
      = .ok (⟨true, chomping, if marked then some 4 else none⟩,
          ⟨'\n' :: rest, line, column', index'⟩) := by
  by_cases given : marked
  · cases chomping <;>
      simp [given, headerMarks, Chomping.sign, Cursor.next, isBreak, Except.map, List.lookup_cons,
        List.lookup_nil]
  · cases chomping <;>
      simp [given, headerMarks, Chomping.sign, Cursor.next, isBreak, Except.map, List.lookup_cons,
        List.lookup_nil]

/-- Behind its header the lines of a literal block are read. -/
theorem readBlockScalar_header (chomping : Chomping) (marked : Prop) [Decidable marked]
    (rest : List Char) (line column index : Nat) :
    ∃ start index', readBlockScalar inner
        ⟨'|' :: ((if marked then ['4'] else []) ++ chomping.sign ++ '\n' :: rest), line, column,
          index⟩
      = blockFrom ⟨true, chomping, if marked then some 4 else none⟩ inner start
          (if marked then .known (inner - 1 + 4) else .unknown 0) {} false (line + 1) 0 index'
          rest := by
  have marks (start : Cursor) :=
    headerMarks_sign start chomping marked rest line (column + 1) (index + 1)
  generalize (if marked then ['4'] else []) ++ chomping.sign ++ '\n' :: rest = text at marks ⊢
  obtain ⟨column', index', marks⟩ := marks ⟨'|' :: text, line, column, index⟩
  have next : Cursor.next ⟨'|' :: text, line, column, index⟩
      = ⟨text, line, column + 1, index + 1⟩ := rfl
  refine ⟨⟨'|' :: text, line, column, index⟩, index' + 1, ?_⟩
  rw [readBlockScalar, next]
  simp only [List.head?_cons, decide_true]
  rw [marks]
  by_cases given : marked
  · simp only [given, if_true]
    rfl
  · simp only [given, if_false]
    rfl

/-- The first line of a literal block tells its indentation. -/
theorem blockFrom_firstLine (literal : header.literal = true) {c : Char}
    (word : isBreak c = false ∧ c ≠ '\t') (deep : inner ≤ indent ∧ 0 < indent)
    (mark : c = ' ' → indent = inner - 1 + 4) (line index : Nat) (rest : List Char) :
    blockFrom header inner start (if c = ' ' then .known (inner - 1 + 4) else .unknown 0) {} false
        line 0 index (List.replicate indent ' ' ++ c :: rest)
      = blockFrom header inner start (.known indent) { taken := [c], indented := isGap c } true
          line (indent + 1) (index + indent + 1) rest := by
  obtain ⟨notBreak, notTab⟩ := word
  obtain ⟨deep, indented⟩ := deep
  by_cases space : c = ' '
  · rw [if_pos space, ← mark space, blockFrom_margin header inner start {} (.known indent) indent
      line 0 index _ fun i less => by simpa [BlockIndent.isMargin] using less, blockFrom]
    simp [BlockIndent.isMargin, BlockIndent.meet, BlockIndent.settle, notBreak, literal,
      BlockText.startLine]
  · rw [if_neg space, blockFrom_margin header inner start {} (.unknown 0) indent line 0 index _
      fun _ _ => rfl, blockFrom]
    have settled : max indent (max inner 1) = indent := by omega
    simp [BlockIndent.isMargin, BlockIndent.meet, BlockIndent.settle, notBreak, literal, space,
      notTab, settled, BlockText.startLine]

/-- Behind the first character of a literal block the rest of the text is read, and with the line
breaks that belong to it it is the text. -/
theorem blockFrom_rest {c : Char} (word : isBreak c = false) (cs : List Char)
    (kept : ∀ d ∈ cs, isBreak d = true → breakText d = d)
    (literal : header.literal = true) (chomped : header.chomping = literalChomping (c :: cs))
    {j : Nat} (less : j < indent) {body : List Char} (starts : StartsToken body)
    (line column index : Nat) :
    ∃ line' index', blockFrom header inner start (.known indent)
        { taken := [c], indented := isGap c } true line column index
        ((literalLines indent false false cs).toList ++
          ((if isBreak (cs.getLast?.getD c) then [] else ['\n']) ++ (List.replicate j ' ' ++ body)))
      = .ok (String.ofList (c :: cs), ⟨body, line', j, index'⟩) := by
  have lines (cs : List Char) (kept : ∀ d ∈ cs, isBreak d = true → breakText d = d) :=
    blockFrom_lines header inner indent start literal cs kept c
      { taken := [c], indented := isGap c } (fun _ => ⟨rfl, rfl⟩) line column index
      fun broken => by rw [word] at broken; cases broken
  simp only [word, Bool.not_false] at lines
  cases broken : isBreak (cs.getLast?.getD c) with
  | false =>
    -- the break behind the last line does not belong to the text
    obtain ⟨b, line₁, column₁, index₁, all, fits, read⟩ := lines cs kept
    rw [broken] at fits read
    obtain ⟨b', -, last, read'⟩ := blockFrom_break header inner indent start b fits isBreak_newline
      rfl line₁ column₁ index₁
    obtain rfl := last rfl
    refine ⟨line₁ + 1, index₁ + 1 + j, ?_⟩
    rw [read, if_neg Bool.false_ne_true, List.singleton_append, read',
      blockFrom_outside header inner indent start _ _ _ less starts, chomped,
      literalChomping_word broken]
    rw [fits.all_eq_taken] at all
    simp [BlockText.finish, all, BlockText.all]
  | true =>
    cases found : cs.getLast? with
    | none =>
      rw [found, Option.getD_none, word] at broken
      cases broken
    | some e =>
      obtain ⟨front, rfl⟩ := List.getLast?_eq_some_iff.1 found
      rw [found, Option.getD_some] at broken
      obtain ⟨b, line₁, column₁, index₁, all, fits, read⟩ :=
        lines front fun d mem => kept d (List.mem_append_left [e] mem)
      obtain ⟨b', all', last, read'⟩ := blockFrom_break header inner indent start b fits broken
        (kept e (by simp) broken) line₁ column₁ index₁
      refine ⟨line₁ + 1, index₁ + 1 + j, ?_⟩
      rw [toList_literalLines_concat indent false front broken, List.append_assoc, read, if_pos rfl,
        List.singleton_append, List.nil_append, read',
        blockFrom_outside header inner indent start _ _ _ less starts, chomped,
        literalChomping_break broken]
      have text : b'.all.reverse = c :: (front ++ [e]) := by
        rw [all', all]
        simp [BlockText.all]
      -- a second break in front of the last one shows that all of them are kept
      cases blank : isBreak (front.getLast?.getD c) with
      | true => rw [if_pos rfl, BlockText.finish_keep, text]
      | false =>
        rw [blank] at fits last
        obtain rfl := last rfl
        have none : BlockText.blankLines { b with ending := some e } = [] := (fits rfl).2
        rw [if_neg Bool.false_ne_true, BlockText.finish_clip none, text]

/-- A text is read back from a literal block. The number in the header counts from the node around
the block, so that a text that starts with a space needs a block of that indentation. -/
theorem readBlockScalar_literal {cs : List Char} (h : IsLiteral cs)
    (deep : inner ≤ indent ∧ 0 < indent) (mark : cs.head? = some ' ' → indent = inner - 1 + 4)
    {j : Nat} (less : j < indent) {body : List Char} (starts : StartsToken body)
    (line column index : Nat) :
    ∃ line' index', readBlockScalar inner ⟨'|' :: ((literalMarks cs).toList ++
        ((literalLines indent true true cs).toList ++
          ((if cs.getLast?.any isBreak then [] else ['\n']) ++
            (List.replicate j ' ' ++ body)))), line, column, index⟩
      = .ok (String.ofList cs, ⟨body, line', j, index'⟩) := by
  have kept := h.breakText
  have first := h.first
  rw [toList_literalMarks h]
  cases cs with
  | nil => exact absurd h.block (by decide)
  | cons c cs =>
    have word := first c rfl
    have written : (literalLines indent true true (c :: cs)).toList
        = '\n' :: (List.replicate indent ' '
          ++ c :: (literalLines indent false false cs).toList) := by
      rw [literalLines, word.1]
      simp [String.toList_append, toList_spaces]
    simp only [List.head?_cons, Option.some.injEq, List.getLast?_cons, Option.any_some, written,
      List.cons_append, List.append_assoc] at mark ⊢
    obtain ⟨start, index₁, header⟩ := readBlockScalar_header inner (literalChomping (c :: cs))
      (c = ' ') _ line column index
    rw [← List.append_assoc, header,
      blockFrom_firstLine _ inner indent start rfl word deep mark (line + 1) index₁]
    exact blockFrom_rest _ inner indent start word.1 cs
      (fun d mem => kept d (List.mem_cons_of_mem c mem)) rfl rfl less starts _ _ _

end Yaml

end CodeSmell
