import CodeSmell.Proofs.Quotation
import CodeSmell.Yaml.Token.Scan
import CodeSmell.Yaml.Writer

/-!
# Scalars on a line

A text is written plain, in single quotes or in double quotes. The lemmas say that the reader of
each form gives the text back and stops behind it, whatever follows. In single quotes and in double
quotes a text ends at its closing quote (`singleFrom_singleQuoted`, `doubleFrom_doubleQuoted`). A
plain text ends at the colon of its entry or with its line (`plainFrom_colon`, `plainFrom_newline`);
that none of its own characters ends it is what `allowsPlain` is there for (`plainFrom_text`).
-/

set_option autoImplicit false

namespace CodeSmell

namespace Yaml

theorem isGap_iff {c : Char} : isGap c = true ↔ c = ' ' ∨ c = '\t' := by
  simp [isGap]

theorem isBreak_newline : isBreak '\n' = true := rfl

theorem toList_toString_char (c : Char) : c.toString.toList = [c] := String.toList_singleton c

theorem toList_spaces (n : Nat) : (spaces n).toList = List.replicate n ' ' := by
  rw [spaces, String.toList_ofList]

theorem isBoundary_cons {c : Char} {rest : List Char} (hyphen : c ≠ '-') (point : c ≠ '.') :
    isBoundary (c :: rest) = false := by
  unfold isBoundary
  split
  · exact absurd (List.cons_eq_cons.1 ‹_›).1 hyphen
  · exact absurd (List.cons_eq_cons.1 ‹_›).1 point
  · rfl

theorem atBoundary_of_pos {rest : List Char} {line column index : Nat} (inside : 0 < column) :
    Cursor.atBoundary ⟨rest, line, column, index⟩ = false := by
  simp [Cursor.atBoundary, Nat.ne_of_gt inside]

theorem atBoundary_cons {c : Char} {rest : List Char} {line column index : Nat} (hyphen : c ≠ '-')
    (point : c ≠ '.') : Cursor.atBoundary ⟨c :: rest, line, column, index⟩ = false := by
  simp [Cursor.atBoundary, isBoundary_cons hyphen point]

/-! ## Plain scalars -/

/-- A text that can stand on a line without quotes. -/
structure IsPlain (cs : List Char) : Prop where
  nonempty : cs ≠ []
  plain : allowsPlain cs = true

namespace IsPlain

variable {cs : List Char}

/-- What the characters of a plain text are. -/
theorem chars (h : IsPlain cs) : ∀ c ∈ cs, isPrintable c = true ∧ isBreak c = false ∧ c ≠ '\t' := by
  have plain := h.plain
  simp only [allowsPlain, allowsSingle, hasSpecial, Bool.and_eq_true, Bool.not_eq_true',
    List.any_eq_false, List.contains_eq_mem, decide_eq_false_iff_not] at plain
  obtain ⟨⟨⟨⟨⟨⟨-, tab⟩, special⟩, -⟩, -⟩, breaks⟩, -⟩ := plain
  intro c mem
  have notTab : c ≠ '\t' := fun same => tab (same ▸ mem)
  refine ⟨?_, Bool.eq_false_iff.2 (breaks c mem), notTab⟩
  have := special c mem
  simpa [notTab] using this

theorem edges (h : IsPlain cs) :
    cs.head? ≠ some ' ' ∧ cs.getLast? ≠ some ' ' ∧ hasIndicator cs = false := by
  have plain := h.plain
  simp only [allowsPlain, Bool.and_eq_true, Bool.not_eq_true'] at plain
  obtain ⟨⟨⟨⟨-, first⟩, last⟩, -⟩, indicator⟩ := plain
  refine ⟨?_, ?_, indicator⟩
  · intro same
    rw [same] at first
    simp at first
  · intro same
    rw [same] at last
    simp at last

end IsPlain

/-- How a plain text starts: with a character that is no mark by itself, and whose meaning as a mark
of an entry or as the edge of a document the text behind it excludes. -/
structure PlainStart (c : Char) (cs : List Char) : Prop where
  word : isGap c = false
  notBreak : isBreak c = false
  notMark : c ∉ "#,[]\x7b\x7d&*!|>'\"%@\x60".toList
  goesOn : c = '?' ∨ c = ':' ∨ c = '-' → followedByGap cs = false
  notEdge : ∀ d, d = '-' ∨ d = '.' → [d, d, d].isPrefixOf (c :: cs) = false

theorem IsPlain.start {c : Char} {cs : List Char} (plain : IsPlain (c :: cs)) :
    PlainStart c cs := by
  obtain ⟨head, -, indicator⟩ := plain.edges
  obtain ⟨-, notBreak, notTab⟩ := plain.chars c List.mem_cons_self
  have notSpace : c ≠ ' ' := fun same => head (congrArg some same)
  simp only [hasIndicator, startsWithIndicator, Bool.or_eq_false_iff] at indicator
  obtain ⟨⟨⟨⟨mark, followed⟩, hyphens⟩, points⟩, -⟩ := indicator
  refine ⟨by simp [isGap, notSpace, notTab], notBreak, by simpa using mark, ?_, ?_⟩
  · rintro (rfl | rfl | rfl) <;> simpa using followed
  · rintro _ (rfl | rfl)
    · exact hyphens
    · exact points

/-- A colon inside a plain text does not end it: the text goes on with a word behind it. -/
theorem endsPlain_eq_false {c : Char} {rest : List Char} (tail : List Char)
    (kept : c = ':' → followedByGap rest = false) (breaks : ∀ d ∈ rest, isBreak d = false) :
    endsPlain false (c :: (rest ++ tail)) = false := by
  by_cases colon : c = ':'
  · subst colon
    cases rest with
    | nil => cases kept rfl
    | cons d rest =>
      have word := kept rfl
      rw [followedByGap] at word
      simp only [endsPlain, endsWord, List.cons_append, isGap, word, Bool.false_or]
      exact breaks d List.mem_cons_self
  · simp [endsPlain]

/-- The words of a plain text behind its first character. Blanks between words are kept apart until
the next word shows that they belong to the text. -/
theorem plainFrom_words (indent : Nat) (start : Cursor) (cs tail : List Char) (before : Char)
    (taken blanks : List Char) (line column index : Nat)
    (chars : ∀ c ∈ cs, isBreak c = false ∧ c ≠ '\t') (words : hasIndicatorAfter before cs = false)
    (gap : blanks ≠ [] → before = ' ') (last : cs.getLast?.getD before ≠ ' ')
    (inside : 0 < column) :
    plainFrom false indent start taken { blanks := blanks } line column index (cs ++ tail)
      = plainFrom false indent start (cs.reverse ++ (blanks ++ taken)) {} line
        (column + cs.length) (index + cs.length) tail := by
  induction cs generalizing before taken blanks column index with
  | nil =>
    have none : blanks = [] := by
      by_contra some
      exact last (gap some)
    rw [none]
    rfl
  | cons c cs ih =>
    obtain ⟨⟨notBreak, notTab⟩, later⟩ := List.forall_mem_cons.1 chars
    rw [hasIndicatorAfter, Bool.or_eq_false_iff, Bool.or_eq_false_iff] at words
    obtain ⟨⟨colon, comment⟩, words⟩ := words
    have last' : cs.getLast?.getD c ≠ ' ' := by
      cases cs with
      | nil => exact last
      | cons d cs => exact last
    rw [List.cons_append, plainFrom]
    simp only [notBreak, Bool.false_eq_true, if_false, notTab, decide_false, Bool.false_and,
      Gap.blank]
    have shift (n : Nat) : n + 1 + cs.length = n + (c :: cs).length := by
      rw [List.length_cons]
      omega
    by_cases blank : isGap c = true
    · have space : c = ' ' := (isGap_iff.1 blank).resolve_right notTab
      rw [if_pos blank, ih c _ _ _ _ later words (fun _ => space) last' (Nat.succ_pos column),
        shift, shift]
      simp [List.append_assoc]
    · have ends : endsPlain false (c :: (cs ++ tail)) = false := by
        apply endsPlain_eq_false tail
        · intro same
          simpa [same] using colon
        · exact fun d mem => (later d mem).1
      have boundary : Cursor.atBoundary ⟨c :: (cs ++ tail), line, column, index⟩ = false :=
        atBoundary_of_pos inside
      have stays : (!Gap.isEmpty { blanks := blanks } && (decide (c = '#') || false)) = false := by
        cases blanks with
        | nil => rfl
        | cons b blanks =>
          -- a number sign behind a blank would start a comment
          have notComment : c ≠ '#' := by
            intro same
            rw [gap (List.cons_ne_nil _ _)] at comment
            simp [same] at comment
          simp [notComment]
      rw [if_neg blank, boundary, stays, ends, ih c _ _ _ _ later words
        (fun none => absurd rfl none) last' (Nat.succ_pos column), shift, shift]
      simp [Gap.addTo, List.append_assoc]

/-- A plain text is read to its end. -/
theorem plainFrom_text {cs : List Char} (plain : IsPlain cs) {indent : Nat} {start : Cursor}
    (line column index : Nat) (tail : List Char) :
    plainFrom false indent start [] {} line column index (cs ++ tail)
      = plainFrom false indent start cs.reverse {} line (column + cs.length) (index + cs.length)
        tail := by
  obtain ⟨-, last, indicator⟩ := plain.edges
  have chars := plain.chars
  cases cs with
  | nil => exact absurd rfl plain.nonempty
  | cons c cs =>
    obtain ⟨word, notBreak, -, goesOn, -⟩ := plain.start
    rw [hasIndicator, Bool.or_eq_false_iff] at indicator
    have later := (List.forall_mem_cons.1 chars).2
    have ends : endsPlain false (c :: (cs ++ tail)) = false :=
      endsPlain_eq_false tail (fun same => goesOn (.inr (.inl same)))
        fun d mem => (later d mem).2.1
    have last' : cs.getLast?.getD c ≠ ' ' := by
      rw [List.getLast?_cons] at last
      exact fun same => last (congrArg some same)
    rw [List.cons_append, plainFrom]
    simp only [notBreak, word, ends, Bool.false_eq_true, if_false, Gap.isEmpty, Gap.addTo]
    have rest := plainFrom_words indent start cs tail c [c] [] line (column + 1) (index + 1)
      (fun d mem => ⟨(later d mem).2.1, (later d mem).2.2⟩) indicator.2
      (fun none => absurd rfl none) last' (Nat.succ_pos column)
    simpa [Nat.add_comm, Nat.add_left_comm, Nat.add_assoc] using rest

/-- A plain text ends before the colon of its entry. -/
theorem plainFrom_colon {indent : Nat} {start : Cursor} {taken rest : List Char}
    (line column index : Nat) (word : endsWord rest = true) :
    plainFrom false indent start taken {} line column index (':' :: rest)
      = .ok (String.ofList taken.reverse, false, ⟨':' :: rest, line, column, index⟩) := by
  simp [plainFrom, endsPlain, word, isBreak, isGap]

/-- What stands at the start of a token: no blank, no end of a line and no comment. -/
def StartsToken (body : List Char) : Prop :=
  ∀ c ∈ body.head?, isGap c = false ∧ isBreak c = false ∧ c ≠ '#'

/-- The indentation of a line behind a plain text does not belong to the text. -/
theorem plainFrom_margin {indent : Nat} (start : Cursor) (taken : List Char) {gap : Gap}
    (broken : gap.broken = true) (j : Nat) {body : List Char} (starts : StartsToken body)
    (line column index : Nat) (outside : body = [] ∨ column + j < indent) :
    plainFrom false indent start taken gap line column index (List.replicate j ' ' ++ body)
      = .ok (String.ofList taken.reverse, true, ⟨body, line, column + j, index + j⟩) := by
  induction j generalizing column index with
  | zero =>
    cases body with
    | nil => simp [plainFrom, broken]
    | cons c body =>
      obtain ⟨word, notBreak, -⟩ := starts c rfl
      have less : column < indent := outside.resolve_left (List.cons_ne_nil _ _)
      simp [plainFrom, word, notBreak, broken, less]
  | succ j ih =>
    have outside' : body = [] ∨ column + 1 + j < indent := by
      rcases outside with none | less
      · exact .inl none
      · exact .inr (by omega)
    have same : gap.blank ' ' = gap := by simp [Gap.blank, broken]
    rw [List.replicate_succ, List.cons_append, plainFrom]
    simp only [isBreak, isGap, same]
    simpa [Nat.add_comm, Nat.add_left_comm, Nat.add_assoc] using
      ih (column + 1) (index + 1) outside'

/-- A plain text ends with its line if the next line is not indented more than the node around the
text. -/
theorem plainFrom_newline {indent : Nat} {start : Cursor} {taken body : List Char} {j : Nat}
    (starts : StartsToken body) (line column index : Nat) (outside : body = [] ∨ j < indent) :
    plainFrom false indent start taken {} line column index
        ('\n' :: (List.replicate j ' ' ++ body))
      = .ok (String.ofList taken.reverse, true, ⟨body, line + 1, j, index + 1 + j⟩) := by
  have broken : (Gap.newline {} '\n').broken = true := rfl
  have margin := plainFrom_margin start taken broken j starts (line + 1) 0 (index + 1)
    (by rwa [Nat.zero_add])
  rw [Nat.zero_add] at margin
  rw [plainFrom, if_pos isBreak_newline]
  exact margin

/-! ## Single quotes -/

/-- A text that can stand in single quotes, whose only line breaks are separators. -/
structure IsSingle (cs : List Char) : Prop where
  single : allowsSingle cs = true
  flat : '\n' ∉ cs

/-- The line breaks that a text in single quotes can have. -/
def IsSeparator (c : Char) : Prop := c = '\u2028' ∨ c = '\u2029'

theorem IsSeparator.breakText {c : Char} (h : IsSeparator c) : breakText c = c := by
  rcases h with rfl | rfl <;> decide

/-- What the characters of a text in single quotes are. -/
theorem IsSingle.chars {cs : List Char} (h : IsSingle cs) :
    ∀ c ∈ cs, isPrintable c = true ∧ c ≠ '\t' ∧ (isBreak c = true → IsSeparator c) := by
  have single := h.single
  simp only [allowsSingle, hasSpecial, Bool.and_eq_true, Bool.not_eq_true', List.any_eq_false,
    List.contains_eq_mem, decide_eq_false_iff_not] at single
  obtain ⟨⟨-, tab⟩, special⟩ := single
  intro c mem
  have notTab : c ≠ '\t' := fun same => tab (same ▸ mem)
  have printable : isPrintable c = true := by
    have := special c mem
    simpa [notTab] using this
  refine ⟨printable, notTab, fun broken => ?_⟩
  have notNewline : c ≠ '\n' := fun same => h.flat (same ▸ mem)
  simp only [isBreak, Bool.or_eq_true, decide_eq_true_eq] at broken
  rcases broken with (((same | rfl) | rfl) | same) | same
  · exact absurd same notNewline
  · exact absurd printable (by decide)
  · exact absurd printable (by decide)
  · exact .inl same
  · exact .inr same

/-- What is kept apart between two words of a text in single quotes: blanks, or separators where a
line starts. -/
def Gap.Fits (atStart : Bool) (gap : Gap) : Prop :=
  gap.broken = atStart ∧ (atStart = true → gap.first.any (· ≠ '\n') = true)

theorem Gap.Fits.newline {gap : Gap} {atStart : Bool} (fits : gap.Fits atStart) {c : Char}
    (separator : IsSeparator c) : (gap.newline c).Fits true := by
  cases atStart with
  | true =>
    rw [Gap.newline, if_pos fits.1]
    exact ⟨fits.1, fun _ => fits.2 rfl⟩
  | false =>
    rw [Gap.newline, fits.1, if_neg Bool.false_ne_true, separator.breakText]
    refine ⟨rfl, fun _ => ?_⟩
    rcases separator with rfl | rfl <;> decide

theorem Gap.blanks_newline {gap : Gap} (none : gap.blanks = []) (c : Char) :
    (gap.newline c).blanks = [] := by
  rw [Gap.newline]
  split
  · exact none
  · rfl

/-- A separator belongs to the text if no blank stands before it. -/
theorem Gap.Fits.addTo_newline {gap : Gap} {atStart : Bool} (fits : gap.Fits atStart) {c : Char}
    (separator : IsSeparator c) (none : atStart = false → gap.blanks = []) (taken : List Char) :
    (gap.newline c).addTo taken = c :: gap.addTo taken := by
  have kept : some c ≠ some '\n' := by rcases separator with rfl | rfl <;> decide
  cases atStart with
  | true =>
    obtain ⟨broken, first⟩ := fits
    have other : gap.first ≠ some '\n' := by
      intro same
      rw [same] at first
      simp at first
    simp [Gap.newline, Gap.addTo, broken, other, separator.breakText]
  | false =>
    simp [Gap.newline, Gap.addTo, fits.1, none rfl, kept, separator.breakText]

/-- How a character other than a doubled quote is read in single quotes. -/
theorem singleFrom_cons (start : Cursor) (taken : List Char) (gap : Gap) (line column index : Nat)
    {c : Char} {rest : List Char} (alone : c = '\'' → rest.head? ≠ some '\'')
    (boundary : Cursor.atBoundary ⟨c :: rest, line, column, index⟩ = false) :
    singleFrom start taken gap line column index (c :: rest)
      = if isBreak c then singleFrom start taken (gap.newline c) (line + 1) 0 (index + 1) rest
        else if isGap c then
          singleFrom start taken (gap.blank c) line (column + 1) (index + 1) rest
        else if c = '\'' then
          .ok (String.ofList (gap.addTo taken).reverse,
            Cursor.next ⟨c :: rest, line, column, index⟩)
        else singleFrom start (c :: gap.addTo taken) {} line (column + 1) (index + 1) rest := by
  rw [singleFrom]
  · simp [boundary]
  · intro more first second
    exact alone first (second ▸ rfl)

/-- How a character is spelled in single quotes. -/
def spelledSingle (c : Char) : List Char := if c = '\'' then ['\'', '\''] else [c]

/-- The width of the indentation in front of a character in single quotes. -/
def marginWidth (indent : Nat) (atStart : Bool) : Nat := if atStart then indent else 0

theorem toList_singleChars_cons_break (indent : Nat) (atStart : Bool) {c : Char} (cs : List Char)
    (broken : isBreak c = true) :
    (singleChars indent atStart (c :: cs)).toList = c :: (singleChars indent true cs).toList := by
  rw [singleChars, if_pos broken, String.toList_append, toList_toString_char]
  rfl

theorem toList_singleChars_cons_word (indent : Nat) (atStart : Bool) {c : Char} (cs : List Char)
    (word : isBreak c = false) :
    (singleChars indent atStart (c :: cs)).toList
      = List.replicate (marginWidth indent atStart) ' '
        ++ (spelledSingle c ++ (singleChars indent false cs).toList) := by
  have quote : (if c = '\'' then "''" else c.toString).toList = spelledSingle c := by
    rw [spelledSingle]
    split
    · rfl
    · exact toList_toString_char c
  rw [singleChars, word, if_neg Bool.false_ne_true, String.toList_append, String.toList_append,
    quote, List.append_assoc]
  cases atStart with
  | true => rw [if_pos rfl, toList_spaces, marginWidth, if_pos rfl]
  | false => rfl

/-- The indentation in front of a character is passed over: it stands behind a line break only. -/
theorem singleFrom_margin (start : Cursor) (taken : List Char) {gap : Gap} {atStart : Bool}
    (fits : gap.Fits atStart) (indent line column index : Nat) (rest : List Char) :
    singleFrom start taken gap line column index
        (List.replicate (marginWidth indent atStart) ' ' ++ rest)
      = singleFrom start taken gap line (column + marginWidth indent atStart)
        (index + marginWidth indent atStart) rest := by
  cases atStart with
  | false => rfl
  | true =>
    have same : gap.blank ' ' = gap := if_pos fits.1
    rw [marginWidth, if_pos rfl]
    induction indent generalizing column index with
    | zero => rfl
    | succ n ih =>
      rw [List.replicate_succ, List.cons_append, singleFrom_cons _ _ _ _ _ _
        (fun quote => by cases quote) (atBoundary_cons (by decide) (by decide)),
        if_neg (by decide), if_pos (by decide), same, ih, Nat.add_right_comm,
        Nat.add_right_comm index]
      rfl

/-- A character of a line in single quotes is read as itself. A blank is kept apart until the next
character. -/
theorem singleFrom_spelled (start : Cursor) (taken : List Char) (gap : Gap)
    {line column index : Nat} {c : Char} (word : isBreak c = false) (notTab : c ≠ '\t')
    (space : c = ' ' → gap.broken = false) (inside : 0 < column) :
    ∃ taken' gap', gap'.addTo taken' = c :: gap.addTo taken ∧ gap'.Fits false ∧
      (gap'.blanks ≠ [] → c = ' ') ∧
      ∀ rest, singleFrom start taken gap line column index (spelledSingle c ++ rest)
        = singleFrom start taken' gap' line (column + (spelledSingle c).length)
          (index + (spelledSingle c).length) rest := by
  have fresh : Gap.Fits false {} := ⟨rfl, fun absent => nomatch absent⟩
  by_cases quote : c = '\''
  · subst quote
    refine ⟨'\'' :: gap.addTo taken, {}, rfl, fresh, fun some => absurd rfl some, fun rest => ?_⟩
    rw [spelledSingle, if_pos rfl, List.cons_append, List.cons_append, singleFrom]
    rfl
  · have spelled : spelledSingle c = [c] := if_neg quote
    have read (rest : List Char) := @singleFrom_cons start taken gap line column index c rest
      (fun same => absurd same quote) (atBoundary_of_pos inside)
    by_cases blank : isGap c = true
    · obtain rfl := (isGap_iff.1 blank).resolve_right notTab
      have whole := space rfl
      refine ⟨taken, gap.blank ' ', ?_, ?_, fun _ => rfl, fun rest => ?_⟩
      · simp [Gap.blank, Gap.addTo, whole]
      · refine ⟨?_, fun absent => nomatch absent⟩
        simp [Gap.blank, whole]
      · rw [spelled, List.singleton_append, read, if_neg (by decide), if_pos blank]
        rfl
    · refine ⟨c :: gap.addTo taken, {}, rfl, fresh, fun some => absurd rfl some, fun rest => ?_⟩
      rw [spelled, List.singleton_append, read, word, if_neg Bool.false_ne_true, if_neg blank,
        if_neg quote]
      rfl

/-- A text in single quotes is read to its closing quote. `before` is the character in front of what
remains of the text. -/
theorem singleFrom_chars {indent : Nat} (indented : 0 < indent) (start : Cursor) (cs : List Char)
    {tail : List Char} (closing : tail.head? ≠ some '\'') (before : Char) (taken : List Char)
    (gap : Gap) (line column index : Nat) (fits : gap.Fits (isBreak before))
    (blanks : gap.blanks ≠ [] → before = ' ')
    (chars : ∀ c ∈ cs, c ≠ '\t' ∧ (isBreak c = true → IsSeparator c))
    (behind : hasPair isBreak (· = ' ') (before :: cs) = false)
    (ahead : hasSpaceBreak (before :: cs) = false) (inside : isBreak before = false → 0 < column) :
    ∃ line' column', singleFrom start taken gap line column index
        ((singleChars indent (isBreak before) cs).toList ++ '\'' :: tail)
      = .ok (String.ofList ((gap.addTo taken).reverse ++ cs), ⟨tail, line', column',
          index + (singleChars indent (isBreak before) cs).toList.length + 1⟩) ∧ line ≤ line' ∧
      ((∀ c ∈ cs, isBreak c = false) → line' = line ∧
        column' = column + (singleChars indent (isBreak before) cs).toList.length + 1) := by
  induction cs generalizing before taken gap line column index with
  | nil =>
    have written : (singleChars indent (isBreak before) []).toList = [] := by
      rw [singleChars]
      rfl
    refine ⟨line, column + 1, ?_, Nat.le_refl line, fun _ => ⟨rfl, ?_⟩⟩
    · rw [written, List.nil_append, singleFrom_cons _ _ _ _ _ _ (fun _ => closing)
        (atBoundary_cons (by decide) (by decide)), if_neg (by decide), if_neg (by decide),
        if_pos rfl, List.append_nil]
      rfl
    · rw [written, List.length_nil, Nat.add_zero]
  | cons c cs ih =>
    obtain ⟨⟨notTab, separator⟩, later⟩ := List.forall_mem_cons.1 chars
    rw [hasPair, Bool.or_eq_false_iff] at behind
    rw [hasSpaceBreak, hasPair, Bool.or_eq_false_iff] at ahead
    by_cases broken : isBreak c = true
    · have separator := separator broken
      have notSpace : before ≠ ' ' := by
        intro same
        simp [same, broken] at ahead
      have none : gap.blanks = [] := by
        by_contra some
        exact notSpace (blanks some)
      have written := toList_singleChars_cons_break indent (isBreak before) cs broken
      rw [← broken] at written
      obtain ⟨line', column', read, below, -⟩ := ih c taken (gap.newline c) (line + 1) 0 (index + 1)
        (broken ▸ fits.newline separator) (fun some => absurd (Gap.blanks_newline none c) some)
        later behind.2 ahead.2 (fun word => by rw [broken] at word; cases word)
      refine ⟨line', column', ?_, Nat.le_of_succ_le below, fun flat => ?_⟩
      · rw [written, List.cons_append, singleFrom_cons, if_pos broken, read,
          fits.addTo_newline separator fun _ => none]
        · simp only [List.reverse_cons, List.append_assoc, List.singleton_append,
            List.length_cons, Nat.add_comm, Nat.add_left_comm, Nat.add_assoc]
        · rcases separator with rfl | rfl <;> intro same <;> cases same
        · rcases separator with rfl | rfl <;> exact atBoundary_cons (by decide) (by decide)
      · rw [flat c List.mem_cons_self] at broken
        cases broken
    · have word : isBreak c = false := Bool.eq_false_iff.2 broken
      have written := toList_singleChars_cons_word indent (isBreak before) cs word
      rw [← word] at written
      -- behind its indentation the character does not stand at the start of a line
      have inside : 0 < column + marginWidth indent (isBreak before) := by
        cases atStart : isBreak before with
        | true => exact Nat.lt_of_lt_of_le indented (Nat.le_add_left indent column)
        | false => exact inside atStart
      have whole : c = ' ' → gap.broken = false := by
        intro space
        rw [fits.1]
        simpa [space] using behind.1
      obtain ⟨taken', gap', added, fits', blanks', read⟩ :=
        singleFrom_spelled start taken gap word notTab whole inside
      obtain ⟨line', column', rest, below, same⟩ := ih c taken' gap' line _ _ (word ▸ fits') blanks'
        later behind.2 ahead.2 (fun _ => Nat.lt_of_lt_of_le inside (Nat.le_add_right _ _))
      refine ⟨line', column', ?_, below, fun flat => ?_⟩
      · rw [written, List.append_assoc, List.append_assoc, singleFrom_margin start taken fits, read,
          rest, added]
        simp only [List.reverse_cons, List.append_assoc, List.singleton_append, List.length_append,
          List.length_replicate, Nat.add_comm, Nat.add_left_comm, Nat.add_assoc]
      · obtain ⟨sameLine, sameColumn⟩ := same fun d mem => flat d (List.mem_cons_of_mem c mem)
        refine ⟨sameLine, ?_⟩
        rw [sameColumn, written, List.length_append, List.length_append, List.length_replicate]
        omega

/-- A text in single quotes is read back. -/
theorem singleFrom_singleQuoted {cs : List Char} (single : IsSingle cs) {indent : Nat}
    (indented : 0 < indent) (start : Cursor) (line column index : Nat) {tail : List Char}
    (closing : tail.head? ≠ some '\'') (inside : 0 < column) :
    ∃ line' column', singleFrom start [] {} line column index
        (((singleQuoted indent cs).toList ++ tail).drop 1)
      = .ok (String.ofList cs,
          ⟨tail, line', column', index + (singleQuoted indent cs).toList.length - 1⟩) ∧
      line ≤ line' ∧ ((∀ c ∈ cs, isBreak c = false) →
        line' = line ∧ column' = column + (singleQuoted indent cs).toList.length - 1) := by
  have written : (singleQuoted indent cs).toList
      = '\'' :: ((singleChars indent (isBreak '\'') cs).toList ++ ['\'']) := by
    rw [singleQuoted, String.toList_append, String.toList_append]
    rfl
  have pairs := single.single
  simp only [allowsSingle, Bool.and_eq_true, Bool.not_eq_true'] at pairs
  have behind : hasPair isBreak (· = ' ') ('\'' :: cs) = false := by
    cases cs with
    | nil => rfl
    | cons c cs => simpa [hasPair, isBreak] using pairs.1.1.1
  have ahead : hasSpaceBreak ('\'' :: cs) = false := by
    cases cs with
    | nil => rfl
    | cons c cs => simpa [hasSpaceBreak, hasPair] using pairs.1.1.2
  obtain ⟨line', column', read, below, same⟩ := singleFrom_chars indented start cs closing '\'' []
    {} line column index ⟨rfl, fun absent => nomatch absent⟩ (fun some => absurd rfl some)
    (fun c mem => (single.chars c mem).2) behind ahead fun _ => inside
  refine ⟨line', column', ?_, below, fun flat => ?_⟩
  · rw [written, List.cons_append, List.drop_succ_cons, List.drop_zero, List.append_assoc,
      List.singleton_append, read]
    simp [Gap.addTo]
    omega
  · obtain ⟨sameLine, sameColumn⟩ := same flat
    refine ⟨sameLine, ?_⟩
    rw [sameColumn, written, List.length_cons, List.length_append, List.length_singleton]
    omega

/-! ## Double quotes -/

/-- How a character is spelled in double quotes; with `marked` each character is escaped. -/
def spelledDouble (marked : Bool) (c : Char) : List Char :=
  (if isVerbatim c && !marked then c.toString else escape c).toList

theorem toList_doubleQuoted (cs : List Char) :
    (doubleQuoted cs).toList
      = '"' :: (cs.flatMap (spelledDouble (cs.head? = some byteOrderMark)) ++ ['"']) := by
  rw [doubleQuoted, String.toList_append, String.toList_append, String.toList_join,
    List.flatMap_map]
  rfl

/-- The number that hexadecimal digits stand for, read after a number. -/
def hexFrom? (n : Nat) (ds : List Char) : Option Nat :=
  ds.foldlM (fun n c => (hexDigit? c).map (n * 16 + ·)) n

theorem hexFrom?_append (n : Nat) (ds more : List Char) :
    hexFrom? n (ds ++ more) = (hexFrom? n ds).bind fun m => hexFrom? m more := by
  rw [hexFrom?, List.foldlM_append]
  rfl

theorem hexFrom?_zeros (k : Nat) : hexFrom? 0 (List.replicate k '0') = some 0 := by
  induction k with
  | zero => rfl
  | succ k ih => exact ih

theorem hexDigit?_toUpper_digitChar {d : Nat} (h : d < 16) :
    hexDigit? (Nat.digitChar d).toUpper = some d := by
  have all : ∀ d : Fin 16, hexDigit? (Nat.digitChar d).toUpper = some d.val := by decide
  exact all ⟨d, h⟩

theorem hexFrom?_toDigits (n : Nat) :
    hexFrom? 0 ((Nat.toDigits 16 n).map Char.toUpper) = some n := by
  induction n using Nat.strongRecOn with
  | ind n ih =>
    by_cases small : n < 16
    · rw [Nat.toDigits_of_lt_base small]
      simp [hexFrom?, hexDigit?_toUpper_digitChar small]
    · have digit : n % 16 < 16 := Nat.mod_lt n (by decide)
      rw [Nat.toDigits_of_base_le (by decide) (Nat.le_of_not_lt small), List.map_append,
        hexFrom?_append, ih (n / 16) (by omega)]
      simp [hexFrom?, hexDigit?_toUpper_digitChar digit]
      omega

/-- Numbers are written in hexadecimal notation with leading zeros and are read back. -/
theorem hexFrom?_hexText {width n : Nat} (wide : 0 < width) (fits : n < 16 ^ width) :
    (hexText width n).toList.length = width ∧ hexFrom? 0 (hexText width n).toList = some n := by
  have short := (Nat.length_toDigits_le_iff (by decide) wide).2 fits
  rw [hexText, String.toList_ofList]
  constructor
  · rw [List.length_append, List.length_replicate, List.length_map]
    omega
  · rw [hexFrom?_append, hexFrom?_zeros]
    exact hexFrom?_toDigits n

/-- The digits of an escape are read as the character with their number. -/
theorem doubleFrom_digits (start : Cursor) (taken : List Char) (gap : Gap) (line : Nat) {c : Char}
    (ds : List Char) (value column index : Nat) (nonempty : ds ≠ [])
    (number : hexFrom? value ds = some c.toNat) (rest : List Char) :
    doubleFrom start taken gap line column index (.digits value ds.length) (ds ++ rest)
      = doubleFrom start (c :: taken) {} line (column + ds.length) (index + ds.length) .text
        rest := by
  induction ds generalizing gap value column index with
  | nil => exact absurd rfl nonempty
  | cons d ds ih =>
    obtain ⟨next, first, number⟩ := Option.bind_eq_some_iff.1 number
    obtain ⟨digit, read, rfl⟩ := Option.map_eq_some_iff.1 first
    rw [List.cons_append, doubleFrom]
    simp only [read]
    cases ds with
    | nil =>
      have same : value * 16 + digit = c.toNat := Option.some.inj number
      have valid := Text.toNat_range c
      rw [List.length_singleton, if_neg (Nat.lt_irrefl 1), same, if_neg, Char.ofNat_toNat]
      · rfl
      · simp
        omega
    | cons e ds =>
      have more : 1 < (d :: e :: ds).length := by simp
      rw [if_pos more]
      have rest := ih {} (value * 16 + digit) (column + 1) (index + 1) (List.cons_ne_nil _ _) number
      simpa [Nat.add_comm, Nat.add_left_comm, Nat.add_assoc] using rest

/-- The letter of a short escape stands for the character. -/
theorem escaped?_of_escapeLetter? {c letter : Char} (h : escapeLetter? c = some letter) :
    escaped? letter = some c ∧ isBreak letter = false := by
  obtain ⟨before, behind, table, -⟩ := List.lookup_eq_some_iff.1 h
  have all : ∀ p ∈ [('\x00', '0'), ('\x07', 'a'), ('\x08', 'b'), ('\t', 't'), ('\n', 'n'),
      ('\x0b', 'v'), ('\x0c', 'f'), ('\r', 'r'), ('\x1b', 'e'), ('"', '"'), ('\\', '\\'),
      ('\u0085', 'N'), ('\u00a0', '_'), ('\u2028', 'L'), ('\u2029', 'P')],
      escaped? p.2 = some p.1 ∧ isBreak p.2 = false := by decide
  exact all (c, letter) (by rw [table]; simp)

/-- The forms of an escape for a character: a backslash with a letter that stands for it, or with a
letter and the digits of its number. -/
inductive EscapeOf (c : Char) : List Char → Prop
  | letter {l : Char} (value : escaped? l = some c) (notBreak : isBreak l = false) :
    EscapeOf c ['\\', l]
  | digits {l : Char} {ds : List Char} (noValue : escaped? l = none)
    (width : escapeWidth? l = some ds.length) (notBreak : isBreak l = false) (nonempty : ds ≠ [])
    (number : hexFrom? 0 ds = some c.toNat) : EscapeOf c ('\\' :: l :: ds)

theorem EscapeOf.hexText {c l : Char} {width : Nat}
    (known : (l, width) ∈ [('x', 2), ('u', 4), ('U', 8)]) (fits : c.toNat < 16 ^ width) :
    EscapeOf c ('\\' :: l :: (hexText width c.toNat).toList) ∧
      (hexText width c.toNat).toList.length = width := by
  have all : ∀ p ∈ [('x', 2), ('u', 4), ('U', 8)], escaped? p.1 = none ∧
      escapeWidth? p.1 = some p.2 ∧ isBreak p.1 = false ∧ 0 < p.2 := by decide
  obtain ⟨noValue, width?, notBreak, wide⟩ := all (l, width) known
  obtain ⟨length, number⟩ := hexFrom?_hexText wide fits
  refine ⟨.digits noValue (width?.trans (congrArg some length.symm)) notBreak ?_ number, length⟩
  intro empty
  rw [empty] at length
  exact Nat.ne_of_gt wide length.symm

theorem utf8Size_eq (c : Char) :
    c.utf8Size = if c.toNat ≤ 0x7F then 1 else if c.toNat ≤ 0x7FF then 2
      else if c.toNat ≤ 0xFFFF then 3 else 4 := by
  simp only [Char.utf8Size, UInt32.le_iff_toNat_le]
  rfl

/-- Characters are escaped, with at most four characters for each byte. -/
theorem escapeOf_escape (c : Char) :
    EscapeOf c (escape c).toList ∧ (escape c).toList.length ≤ 4 * c.utf8Size := by
  have range := Text.toNat_range c
  have size := Char.utf8Size_pos c
  -- an escape with digits, and a bound on its length
  have digits {l : Char} {width : Nat} (known : (l, width) ∈ [('x', 2), ('u', 4), ('U', 8)])
      (fits : c.toNat < 16 ^ width) (short : 2 + width ≤ 4 * c.utf8Size) :
      EscapeOf c (['\\', l] ++ (hexText width c.toNat).toList) ∧
        (['\\', l] ++ (hexText width c.toNat).toList).length ≤ 4 * c.utf8Size := by
    obtain ⟨written, length⟩ := EscapeOf.hexText known fits
    refine ⟨written, ?_⟩
    rw [List.length_append, length]
    exact short
  unfold escape
  cases found : escapeLetter? c with
  | some l =>
    obtain ⟨value, notBreak⟩ := escaped?_of_escapeLetter? found
    simp only [String.toList_append, toList_toString_char]
    refine ⟨.letter value notBreak, ?_⟩
    change 2 ≤ _
    omega
  | none =>
    simp only
    split
    · rw [String.toList_append]
      exact digits (by decide) (by omega) (by omega)
    · split
      · rw [String.toList_append]
        refine digits (by decide) (by omega) ?_
        rw [utf8Size_eq]
        rw [if_neg (by omega), if_pos ‹c.toNat ≤ 0xFFFF›]
        split <;> decide
      · rw [String.toList_append]
        refine digits (by decide) (by omega) ?_
        rw [utf8Size_eq, if_neg (by omega), if_neg (by omega), if_neg (by omega)]
        decide

theorem doubleFrom_backslash (start : Cursor) (taken : List Char) (gap : Gap)
    {line column index : Nat} (inside : 0 < column) (rest : List Char) :
    doubleFrom start taken gap line column index .text ('\\' :: rest)
      = doubleFrom start taken gap line (column + 1) (index + 1) .escape rest := by
  have sort : isBreak '\\' = false ∧ isGap '\\' = false := by decide
  rw [doubleFrom]
  simp [atBoundary_of_pos inside, sort]

/-- Every character is read back from double quotes. A blank is kept apart until the next
character. -/
theorem doubleFrom_spelled (start : Cursor) (taken : List Char) (gap : Gap)
    {line column index : Nat} (marked : Bool) (c : Char) (whole : gap.broken = false)
    (inside : 0 < column) :
    ∃ taken' gap', gap'.addTo taken' = c :: gap.addTo taken ∧ gap'.broken = false ∧
      ∀ rest, doubleFrom start taken gap line column index .text (spelledDouble marked c ++ rest)
        = doubleFrom start taken' gap' line (column + (spelledDouble marked c).length)
          (index + (spelledDouble marked c).length) .text rest := by
  have boundary {cs : List Char} : Cursor.atBoundary ⟨cs, line, column, index⟩ = false :=
    atBoundary_of_pos inside
  by_cases verbatim : (isVerbatim c && !marked) = true
  · have spelled : spelledDouble marked c = [c] := by
      rw [spelledDouble, if_pos verbatim, toList_toString_char]
    simp only [isVerbatim, Bool.and_eq_true, Bool.not_eq_true', decide_eq_true_eq] at verbatim
    obtain ⟨⟨⟨⟨printable, notBreak⟩, notQuote⟩, notEscape⟩, -⟩ := verbatim
    have notTab : c ≠ '\t' := by
      rintro rfl
      cases printable
    by_cases blank : isGap c = true
    · obtain rfl := (isGap_iff.1 blank).resolve_right notTab
      refine ⟨taken, gap.blank ' ', ?_, ?_, fun rest => ?_⟩
      · simp [Gap.blank, Gap.addTo, whole]
      · simp [Gap.blank, whole]
      · rw [spelled, List.singleton_append, doubleFrom]
        simp only [boundary, notBreak, blank]
        rfl
    · refine ⟨c :: gap.addTo taken, {}, rfl, rfl, fun rest => ?_⟩
      rw [spelled, List.singleton_append, doubleFrom]
      simp only [boundary, notBreak, blank, notQuote, notEscape]
      rfl
  · have spelled : spelledDouble marked c = (escape c).toList := by
      rw [spelledDouble, if_neg verbatim]
    rw [spelled]
    refine ⟨c :: gap.addTo taken, {}, rfl, rfl, fun rest => ?_⟩
    have written := (escapeOf_escape c).1
    generalize (escape c).toList = w at written ⊢
    cases written with
    | letter value notBreak =>
      rw [List.cons_append, List.singleton_append, doubleFrom_backslash _ _ _ inside, doubleFrom]
      simp only [notBreak, value]
      rfl
    | @digits l ds noValue width notBreak nonempty number =>
      rw [List.cons_append, List.cons_append, doubleFrom_backslash _ _ _ inside, doubleFrom]
      simp only [notBreak, noValue, width]
      rw [if_neg Bool.false_ne_true, doubleFrom_digits start _ _ line ds 0 _ _ nonempty number]
      simp [Nat.add_comm, Nat.add_left_comm]

theorem doubleFrom_chars (start : Cursor) (marked : Bool) (cs tail taken : List Char) (gap : Gap)
    (line column index : Nat) (whole : gap.broken = false) (inside : 0 < column) :
    doubleFrom start taken gap line column index .text
        (cs.flatMap (spelledDouble marked) ++ '"' :: tail)
      = .ok (String.ofList ((gap.addTo taken).reverse ++ cs), ⟨tail, line,
          column + (cs.flatMap (spelledDouble marked)).length + 1,
          index + (cs.flatMap (spelledDouble marked)).length + 1⟩) := by
  induction cs generalizing taken gap column index with
  | nil =>
    rw [List.flatMap_nil, List.nil_append, doubleFrom]
    simp only [atBoundary_of_pos inside]
    simp [isBreak, isGap, Cursor.next]
  | cons c cs ih =>
    obtain ⟨taken', gap', added, whole', read⟩ :=
      doubleFrom_spelled start taken gap marked c whole inside
    rw [List.flatMap_cons, List.append_assoc, read, ih taken' gap' _ _ whole'
      (Nat.lt_of_lt_of_le inside (Nat.le_add_right _ _)), added]
    simp [Nat.add_comm, Nat.add_left_comm, Nat.add_assoc]

/-- Every text is read back from double quotes. -/
theorem doubleFrom_doubleQuoted (start : Cursor) (cs tail : List Char) (line column index : Nat)
    (inside : 0 < column) :
    doubleFrom start [] {} line column index .text (((doubleQuoted cs).toList ++ tail).drop 1)
      = .ok (String.ofList cs, ⟨tail, line, column + (doubleQuoted cs).toList.length - 1,
          index + (doubleQuoted cs).toList.length - 1⟩) := by
  rw [toList_doubleQuoted, List.cons_append, List.drop_succ_cons, List.drop_zero, List.append_assoc,
    List.singleton_append, doubleFrom_chars start _ cs tail [] {} line column index rfl inside]
  simp [Gap.addTo]
  omega

/-! ## Keys -/

/-- Spelling a text character by character does not make it longer than spelling its bytes. -/
theorem length_flatMap_le {spell : Char → List Char}
    (short : ∀ c, (spell c).length ≤ 4 * c.utf8Size) (cs : List Char) :
    (cs.flatMap spell).length ≤ 4 * (String.ofList cs).utf8ByteSize := by
  induction cs with
  | nil => simp
  | cons c cs ih =>
    have first := short c
    have size : (String.ofList (c :: cs)).utf8ByteSize
        = c.utf8Size + (String.ofList cs).utf8ByteSize := by
      rw [String.ofList_cons, String.utf8ByteSize_append, String.utf8ByteSize_singleton]
    rw [List.flatMap_cons, List.length_append, size]
    omega

theorem length_spelledDouble (marked : Bool) (c : Char) :
    (spelledDouble marked c).length ≤ 4 * c.utf8Size := by
  have size := Char.utf8Size_pos c
  rw [spelledDouble]
  split
  · rw [toList_toString_char, List.length_singleton]
    omega
  · exact (escapeOf_escape c).2

theorem length_spelledSingle (c : Char) : (spelledSingle c).length ≤ 4 * c.utf8Size := by
  have size := Char.utf8Size_pos c
  rw [spelledSingle]
  split <;> simp only [List.length_cons, List.length_nil] <;> omega

/-- On one line the indentation of further lines does not matter. -/
theorem toList_singleChars {cs : List Char} (indent : Nat) (line : ∀ c ∈ cs, isBreak c = false) :
    (singleChars indent false cs).toList = cs.flatMap spelledSingle := by
  induction cs with
  | nil => simp [singleChars]
  | cons c cs ih =>
    obtain ⟨word, later⟩ := List.forall_mem_cons.1 line
    rw [toList_singleChars_cons_word indent false cs word, ih later, List.flatMap_cons]
    rfl

theorem toList_singleQuoted {cs : List Char} (indent : Nat) (line : ∀ c ∈ cs, isBreak c = false) :
    (singleQuoted indent cs).toList = '\'' :: (cs.flatMap spelledSingle ++ ['\'']) := by
  rw [singleQuoted, String.toList_append, String.toList_append, toList_singleChars indent line]
  rfl

theorem isBreak_of_isSimpleKey {name : String} (simple : isSimpleKey name = true) :
    ∀ c ∈ name.toList, isBreak c = false := by
  simp only [isSimpleKey, Bool.and_eq_true, Bool.not_eq_true', List.any_eq_false] at simple
  exact fun c mem => Bool.eq_false_iff.2 (simple.1 c mem)

theorem flat_of_isSimpleKey {name : String} (simple : isSimpleKey name = true) :
    '\n' ∉ name.toList :=
  fun mem => nomatch isBreak_of_isSimpleKey simple '\n' mem

/-- The text of a simple key is so short that its colon is found. -/
theorem length_flatText {name : String} (simple : isSimpleKey name = true) (indent : Nat) :
    (flatText indent name).toList.length ≤ 4 * 128 + 2 := by
  have line := isBreak_of_isSimpleKey simple
  have short : name.utf8ByteSize ≤ 128 := of_decide_eq_true (Bool.and_eq_true_iff.1 simple).2
  have bound (spell : Char → List Char) (each : ∀ c, (spell c).length ≤ 4 * c.utf8Size) :
      (name.toList.flatMap spell).length ≤ 4 * 128 := by
    have whole := length_flatMap_le each name.toList
    rw [String.ofList_toList] at whole
    omega
  have double : (doubleQuoted name.toList).toList.length ≤ 4 * 128 + 2 := by
    rw [toList_doubleQuoted, List.length_cons, List.length_append]
    exact Nat.add_le_add_right (bound _ (length_spelledDouble _)) 2
  have single : (singleQuoted indent name.toList).toList.length ≤ 4 * 128 + 2 := by
    rw [toList_singleQuoted indent line, List.length_cons, List.length_append]
    exact Nat.add_le_add_right (bound _ length_spelledSingle) 2
  have plain : name.toList.length ≤ 4 * 128 + 2 := by
    have whole := bound (fun c => [c]) fun c => by
      have size := Char.utf8Size_pos c
      rw [List.length_singleton]
      omega
    rw [List.flatMap_singleton'] at whole
    omega
  rw [flatText]
  split
  · exact double
  · split
    · exact plain
    · split
      · exact single
      · exact double

end Yaml

end CodeSmell
