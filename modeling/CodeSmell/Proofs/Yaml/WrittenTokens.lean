import CodeSmell.Proofs.Yaml.Numbers
import CodeSmell.Proofs.Yaml.ScalarTokens

/-!
# Tokens of a written document

The tokens of a value are determined by its structure (`Value.tokens`). A value is written so that
the scanner finds these tokens, whatever stands in front of it and behind it
(`ScanState.leads_value`): the proof follows the structure of the value, and in a collection the
next item is what stands behind the present one.
-/

set_option autoImplicit false

namespace CodeSmell

namespace Yaml

/-! ## Texts -/

/-- A text that is kept: it is the UTF-8 form of a string that is. -/
def KeptText (inList : Bool) (t : Text) : Prop := ∃ s : String, t = s ∧ Kept inList s

/-- A name that is kept: it does not take entries over from elsewhere, and if it does not stand on
the line of its colon, it is kept as a text. -/
def KeptName (t : Text) : Prop :=
  ∃ s : String, t = s ∧ s ≠ "<<" ∧ (isSimpleKey s = false → Kept false s)

theorem textLine_ofString (indent : Nat) (s : String) :
    textLine indent (Text.ofString s) = scalarLine indent s := by
  rw [textLine, Text.toString?_ofString]

theorem simpleKey?_ofString (indent : Nat) (s : String) :
    simpleKey? indent (Text.ofString s)
      = if isSimpleKey s then some (flatText indent s) else none := by
  rw [simpleKey?, Text.toString?_ofString]

/-- The token of a text. -/
def textToken (t : Text) : TokenKind := .scalar t.shown (isPlainText t.shown)

theorem textToken_ofString (s : String) :
    textToken (Text.ofString s) = .scalar s (isPlainText s) := by
  rw [textToken, Text.shown_ofString]

/-! ## Tokens of values -/

/-- The tokens of the items of a list. -/
def itemTokens (items : List Text) : List TokenKind :=
  items.flatMap fun t => [.blockEntry, textToken t]

/-- The word for a truth value. -/
def boolWord (b : Bool) : String := if b then "true" else "false"

mutual
/-- The tokens of a value. -/
def Value.tokens : Value → List TokenKind
  | .int n => [.scalar (toString n) true]
  | .bool b => [.scalar (boolWord b) true]
  | .text t => [textToken t]
  | .list [] => [.flowSequence, .flowSequenceEnd]
  | .list (item :: items) => [.blockSequence] ++ itemTokens (item :: items) ++ [.blockEnd]
  | .table [] => [.flowMapping, .flowMappingEnd]
  | .table (field :: fields) =>
    [.blockMapping] ++ (fieldTokens field ++ fieldsTokens fields) ++ [.blockEnd]

/-- The tokens of an entry. -/
def fieldTokens : Text × Value → List TokenKind
  | (name, value) => [.key, textToken name, .value] ++ value.tokens

/-- The tokens of entries. -/
def fieldsTokens : List (Text × Value) → List TokenKind
  | [] => []
  | field :: fields => fieldTokens field ++ fieldsTokens fields
end

/-- A value whose integers have 64 bits, whose texts and names are kept and that is nested no deeper
than a number of levels. The names of a table differ. -/
inductive Value.Keeps : Nat → Value → Prop
  | int {n : Nat} {m : Int} (fits : fitsInt64 m = true) : Keeps n (.int m)
  | bool {n : Nat} (b : Bool) : Keeps n (.bool b)
  | text {n : Nat} {t : Text} (kept : KeptText false t) : Keeps n (.text t)
  | list {n : Nat} {items : List Text} (kept : ∀ t ∈ items, KeptText true t) :
    Keeps (n + 1) (.list items)
  | table {n : Nat} {fields : List (Text × Value)} (distinct : (fields.map Prod.fst).Nodup)
    (names : ∀ field ∈ fields, KeptName field.1) (values : ∀ field ∈ fields, Keeps n field.2) :
    Keeps (n + 1) (.table fields)

theorem isPlain_boolWord (b : Bool) : IsPlain (boolWord b).toList := by
  cases b
  · exact ⟨by decide, by decide⟩
  · exact ⟨by decide, by decide⟩

namespace ScanState

variable {columns columns' : List Nat} {k j column n : Nat} {body rest : List Char} {allowed : Bool}
  {s : ScanState} {kinds marks more : List TokenKind}

/-! ## First characters -/

theorem startsToken_cons {c : Char} (word : isGap c = false) (notBreak : isBreak c = false)
    (notComment : c ≠ '#') : StartsToken (c :: rest) := by
  intro d mem
  obtain rfl := Option.some.inj mem
  exact ⟨word, notBreak, notComment⟩

theorem startsToken_plain {cs : List Char} (plain : IsPlain cs) (tail : List Char) :
    ∃ c rest, cs ++ tail = c :: rest ∧ StartsToken (c :: rest) := by
  cases cs with
  | nil => exact absurd rfl plain.nonempty
  | cons c cs =>
    obtain ⟨word, notBreak, notMark, -, -⟩ := plain.start
    refine ⟨c, cs ++ tail, rfl, startsToken_cons word notBreak ?_⟩
    rintro rfl
    exact notMark (by decide)

theorem startsToken_flatText {s : String} (flat : '\n' ∉ s.toList) (indent : Nat)
    (tail : List Char) :
    ∃ c rest, (flatText indent s).toList ++ tail = c :: rest ∧ StartsToken (c :: rest) := by
  cases flatForm flat indent with
  | plain reads form =>
    rw [form]
    exact startsToken_plain (isPlain_of_isPlainText reads) tail
  | single quoted single form =>
    rw [form, singleQuoted, String.toList_append, String.toList_append]
    exact ⟨_, _, rfl, startsToken_cons (by decide) (by decide) (by decide)⟩
  | double quoted form =>
    rw [form, toList_doubleQuoted]
    exact ⟨_, _, rfl, startsToken_cons (by decide) (by decide) (by decide)⟩

theorem startsToken_scalarLine (s : String) (indent : Nat) (tail : List Char) :
    ∃ c rest, (scalarLine indent s).toList ++ tail = c :: rest ∧ StartsToken (c :: rest) := by
  by_cases broken : '\n' ∈ s.toList
  · by_cases block : allowsBlock s.toList = true
    · rw [toList_scalarLine_block broken block]
      exact ⟨_, _, rfl, startsToken_cons (by decide) (by decide) (by decide)⟩
    · rw [toList_scalarLine_double broken (Bool.eq_false_iff.2 block), toList_doubleQuoted]
      exact ⟨_, _, rfl, startsToken_cons (by decide) (by decide) (by decide)⟩
  · rw [toList_scalarLine_flat broken, List.append_assoc]
    exact startsToken_flatText broken indent _

/-- Three equal marks in front of a colon stand in the text itself. -/
theorem isPrefixOf_of_append_colon {cs tail more : List Char} {d : Char} (nonempty : cs ≠ [])
    (mark : d ≠ ':') (same : cs ++ ':' :: tail = d :: d :: d :: more) :
    [d, d, d].isPrefixOf cs = true := by
  match cs with
  | [] => exact absurd rfl nonempty
  | [a] =>
    simp only [List.cons_append, List.nil_append, List.cons.injEq] at same
    exact absurd same.2.1.symm mark
  | [a, b] =>
    simp only [List.cons_append, List.nil_append, List.cons.injEq] at same
    exact absurd same.2.2.1.symm mark
  | a :: b :: c :: cs =>
    simp only [List.cons_append, List.cons.injEq] at same
    simp [same.1, same.2.1, same.2.2.1]

/-- No document starts or ends at a plain text. -/
theorem isBoundary_plain {cs : List Char} (plain : IsPlain cs) (tail : List Char) :
    isBoundary (cs ++ ':' :: tail) = false := by
  have nonempty := plain.nonempty
  have noEdge {d : Char} (which : d = '-' ∨ d = '.') (three : [d, d, d].isPrefixOf cs = true) :
      False := by
    cases cs with
    | nil => exact nonempty rfl
    | cons c cs =>
      rw [plain.start.notEdge d which] at three
      cases three
  unfold isBoundary
  split
  · exact (noEdge (.inl rfl) (isPrefixOf_of_append_colon nonempty (by decide) ‹_›)).elim
  · exact (noEdge (.inr rfl) (isPrefixOf_of_append_colon nonempty (by decide) ‹_›)).elim
  · rfl

/-- A key does not stand at the edge of a document. -/
theorem notEdge_key {name : String} (flat : '\n' ∉ name.toList) (indent : Nat) {behind : List Char}
    {c : Char} (written : (flatText indent name).toList ++ ':' :: behind = c :: rest) :
    c ≠ '%' ∧ isBoundary (c :: rest) = false := by
  cases flatForm flat indent with
  | plain reads form =>
    rw [form] at written
    have plain := isPlain_of_isPlainText reads
    refine ⟨?_, written ▸ isBoundary_plain plain behind⟩
    cases text : name.toList with
    | nil => exact absurd text plain.nonempty
    | cons d cs =>
      rw [text] at plain written
      obtain rfl : d = c := (List.cons.inj written).1
      rintro rfl
      exact plain.start.notMark (by decide)
  | single quoted single form =>
    rw [form, singleQuoted, String.toList_append, String.toList_append] at written
    obtain rfl : c = '\'' := (List.cons.inj written).1.symm
    exact ⟨by decide, isBoundary_cons (by decide) (by decide)⟩
  | double quoted form =>
    rw [form, toList_doubleQuoted] at written
    obtain rfl : c = '"' := (List.cons.inj written).1.symm
    exact ⟨by decide, isBoundary_cons (by decide) (by decide)⟩

/-! ## Steps of a document -/

theorem Opens.outside {collection : TokenKind}
    (opens : Opens collection column columns columns' marks) :
    ∀ k ∈ columns.head?, k ≤ column := by
  intro k mem
  cases opens with
  | first deeper _ => exact Nat.le_of_lt (deeper k mem)
  | next =>
    obtain rfl := Option.some.inj mem
    exact Nat.le_refl _

theorem Opens.scanned_marks {collection : TokenKind}
    (opens : Opens collection column columns columns' marks) (tokens : List Token) (line : Nat) :
    scanned (marks.map (⟨·, line⟩) ++ tokens) = scanned tokens ++ marks := by
  cases opens <;> simp [scanned]

/-- The mark of an item. -/
theorem Settled.leads_entry (settled : Settled columns column ('-' :: ' ' :: rest) s kinds)
    (opens : Opens .blockSequence column columns columns' marks) :
    ∃ t, Leads s t ∧
      Behind columns' (column + 1) (' ' :: rest) true t (kinds ++ marks ++ [.blockEntry]) := by
  obtain ⟨tokens, key, line, index, rfl, free, -, shorter, step⟩ :=
    settled.step opens.outside fun _ => ⟨by decide, rfl⟩
  have mark := @mark_inBlock columns tokens key '-' (' ' :: rest) line column index .blockEntry
    .blockSequence columns' marks opens free
    "block sequence entries are not allowed in this context" true
  refine ⟨_, .single ⟨step.trans mark, rfl, rfl, shorter⟩, ?_⟩
  rw [← opens.scanned_marks tokens (line + 1), ← scanned_cons ⟨.blockEntry, line + 1⟩]
  exact .intro

/-- The mark of a key. -/
theorem Settled.leads_keyMark (settled : Settled columns column ('?' :: ' ' :: rest) s kinds)
    (noComment : NoComment (' ' :: rest))
    (opens : Opens .blockMapping column columns columns' marks) :
    ∃ t, Leads s t ∧
      Behind columns' (column + 1) (' ' :: rest) true t (kinds ++ marks ++ [.key]) := by
  obtain ⟨tokens, key, line, index, rfl, free, -, shorter, step⟩ :=
    settled.step opens.outside fun _ => ⟨by decide, rfl⟩
  have mark := @mark_inBlock columns tokens key '?' (' ' :: rest) line column index .key
    .blockMapping columns' marks opens free "mapping keys are not allowed in this context" true
  have token := (congrArg (Except.map dropLineComment) mark).trans
    (congrArg Except.ok (dropLineComment_inBlock noComment))
  refine ⟨_, .single ⟨step.trans token, rfl, rfl, shorter⟩, ?_⟩
  rw [← opens.scanned_marks tokens (line + 1), ← scanned_cons ⟨.key, line + 1⟩]
  exact .intro

/-- The colon behind a key that has a mark of its own. -/
theorem Settled.leads_colon (settled : Settled (column :: columns) column (':' :: rest) s kinds)
    (word : endsWord rest = true) (noComment : NoComment rest) :
    ∃ t, Leads s t ∧
      Behind (column :: columns) (column + 1) rest true t (kinds ++ [.value]) := by
  obtain ⟨tokens, key, line, index, rfl, free, earlier, shorter, step⟩ :=
    settled.step (fun k mem => Nat.le_of_eq (Option.some.inj mem).symm) fun _ =>
      ⟨by decide, isBoundary_cons (by decide) (by decide)⟩
  have value := @value_inBlock_alone columns tokens key rest line column index free earlier
  have scans : (inBlock ⟨':' :: rest, line, column, index⟩ (column :: columns) tokens key
        true).token ':' rest
      = (inBlock ⟨':' :: rest, line, column, index⟩ (column :: columns) tokens key
        true).value.map dropLineComment := by
    simp [token, word]
  rw [scans, value] at step
  have token := step.trans (congrArg Except.ok (dropLineComment_inBlock noComment))
  refine ⟨_, .single ⟨token, rfl, rfl, shorter⟩, ?_⟩
  rw [← scanned_cons ⟨.value, line + 1⟩]
  exact .intro

/-- The colon behind a possible key on its line. -/
theorem step_colon {place : Cursor} {required : Bool} {token : Token} {tokens : List Token}
    {line index : Nat} (sameLine : place.line = line) (near : index ≤ place.index + 1024)
    (opens : Opens .blockMapping place.column columns columns' marks)
    (later : place.column ≤ column) (word : endsWord rest = true) (noComment : NoComment rest) :
    (inBlock ⟨':' :: rest, line, column, index⟩ columns (token :: tokens)
        (some ⟨tokens.length, place, required⟩) false).step
      = .ok (inBlock ⟨rest, line, column + 1, index + 1⟩ columns'
          (⟨.value, line + 1⟩ :: token :: ⟨.key, line + 1⟩ ::
            (marks.map (⟨·, line + 1⟩) ++ tokens)) none false) := by
  have checked : (inBlock ⟨':' :: rest, line, column, index⟩ ([] ++ columns) (token :: tokens)
      (some ⟨tokens.length, place, required⟩) false).checkKey = .ok () := by
    simp [checkKey]
  have step := step_inBlock checked
    (skipFrom_spaces 0 line column index (startsToken_cons (by decide) (by decide) (by decide)))
    (by rintro _ ⟨⟩)
    (fun k mem => Nat.le_trans (opens.outside k mem) later)
    fun _ => ⟨by decide, isBoundary_cons (by decide) (by decide)⟩
  have value := @value_inBlock columns false rest line column index place required columns' marks
    [token] tokens sameLine near opens
  have scans : (inBlock ⟨':' :: rest, line, column, index⟩ columns (token :: tokens)
      (some ⟨tokens.length, place, required⟩) false).token ':' rest
      = (inBlock ⟨':' :: rest, line, column, index⟩ columns (token :: tokens)
        (some ⟨tokens.length, place, required⟩) false).value.map dropLineComment := by
    simp [ScanState.token, word]
  refine step.trans (scans.trans ?_)
  exact (congrArg (Except.map dropLineComment) value).trans
    (congrArg Except.ok (dropLineComment_inBlock noComment))

/-- A simple key with the colon behind it. -/
theorem Settled.leads_key {name : String} (simple : isSimpleKey name = true) {indent : Nat}
    (settled : Settled columns column ((flatText indent name).toList ++ ':' :: rest) s kinds)
    (word : endsWord rest = true) (noComment : NoComment rest)
    (opens : Opens .blockMapping column columns columns' marks) :
    ∃ t column', column < column' ∧ Leads s t ∧ Behind columns' column' rest false t
      (kinds ++ marks ++ [.key, .scalar name (isPlainText name), .value]) := by
  have flat := flat_of_isSimpleKey simple
  obtain ⟨c, more, written, -⟩ := startsToken_flatText flat indent (':' :: rest)
  have short := length_flatText simple indent
  have length : (c :: more).length = (flatText indent name).toList.length + (rest.length + 1) := by
    rw [← written, List.length_append, List.length_cons]
  have positive : 0 < (flatText indent name).toList.length := by
    obtain ⟨d, others, first, -⟩ := startsToken_flatText flat indent []
    rw [List.append_nil] at first
    rw [first]
    exact Nat.succ_pos _
  rw [written] at settled
  obtain ⟨tokens, key, line, index, rfl, free, -, shorter, step⟩ :=
    settled.step opens.outside fun _ => notEdge_key flat indent written
  rw [length] at shorter
  have key := step.trans (token_key simple word written (saveKey_inBlock free))
  generalize (flatText indent name).toList.length = n at key short positive shorter
  have colon := @step_colon columns columns' (column + n) rest marks
    ⟨c :: more, line, column, index⟩ (decide ((inBlock ⟨c :: more, line, column, index⟩ columns
      tokens none true).inner = column + 1))
    ⟨.scalar name (isPlainText name), line + 1⟩ tokens line (index + n) rfl
    (by change index + n ≤ index + 1024; omega) opens (Nat.le_add_right column n) word noComment
  refine ⟨_, column + n + 1, by omega, .tail (.single ⟨key, rfl, rfl, ?_⟩)
    ⟨colon, rfl, rfl, Nat.lt_succ_self _⟩, ?_⟩
  · change rest.length + 1 < _
    omega
  · have kinds : scanned (⟨.value, line + 1⟩ :: ⟨.scalar name (isPlainText name), line + 1⟩ ::
        ⟨.key, line + 1⟩ :: (marks.map (⟨·, line + 1⟩) ++ tokens))
        = scanned tokens ++ marks ++ [.key, .scalar name (isPlainText name), .value] := by
      simp [scanned_cons, opens.scanned_marks]
    rw [← kinds]
    exact .intro

/-! ## Values -/

/-- The step behind a mark at a token that a space separates from it. -/
theorem step_space {c : Char} {tokens : List Token} {line index : Nat} (inside : k < column)
    (starts : StartsToken (c :: rest)) :
    (inBlock ⟨' ' :: c :: rest, line, column, index⟩ (k :: columns) tokens none allowed).step
      = (inBlock ⟨c :: rest, line, column + 1, index + 1⟩ (k :: columns) tokens none
          allowed).token c rest := by
  refine @step_inBlock ⟨' ' :: c :: rest, line, column, index⟩ tokens none allowed [] (k :: columns)
    c rest line (column + 1) (index + 1) allowed (checkKey_inBlock free_none)
    (skipFrom_spaces 1 line column index starts) (fun _ absent => nomatch absent) ?_
    (fun absent => nomatch absent)
  intro l mem
  obtain rfl := Option.some.inj mem
  omega

/-- A token behind a mark, with a space between them. -/
theorem Behind.leads_line {c : Char} (behind : Behind (k :: columns) column (' ' :: c :: rest)
      allowed s kinds) (inside : k < column) (starts : StartsToken (c :: rest))
    (scans : ∀ tokens line index, ScansLine
      (inBlock ⟨c :: rest, line, column + 1, index⟩ (k :: columns) tokens none allowed) c rest
      (k :: columns) j body (scanned tokens ++ more)) :
    ∃ t, Leads s t ∧ Settled (k :: columns) j body t (kinds ++ more) := by
  cases behind with
  | @intro tokens line index =>
    obtain ⟨t, token, shorter, settled⟩ := scans tokens line (index + 1)
    refine ⟨t, .single ⟨(step_space inside starts).trans token, settled.goesOn.1, settled.goesOn.2,
      ?_⟩, settled⟩
    exact Nat.lt_succ_of_lt shorter

/-- The brackets of an empty collection. -/
inductive Brackets : Char → Char → TokenKind → TokenKind → Prop
  | sequence : Brackets '[' ']' .flowSequence .flowSequenceEnd
  | mapping : Brackets '\x7b' '\x7d' .flowMapping .flowMappingEnd

variable {first last : Char} {opening closing : TokenKind}

/-- The state between two brackets; `key` is what was remembered in front of them. -/
def inBrackets (here : Cursor) (columns : List Nat) (tokens : List Token)
    (key : Option PossibleKey) : ScanState :=
  { inBlock here columns tokens key true with keys := [none, key] }

/-- The opening bracket of an empty collection. -/
theorem token_opening (brackets : Brackets first last opening closing) {tokens : List Token}
    {line index : Nat} :
    (inBlock ⟨first :: last :: rest, line, column, index⟩ columns tokens none allowed).token first
        (last :: rest)
      = .ok (inBrackets ⟨last :: rest, line, column + 1, index + 1⟩ columns
          (⟨opening, line + 1⟩ :: tokens) (remembered ⟨first :: last :: rest, line, column, index⟩
            columns tokens allowed)) := by
  have opens : (inBlock ⟨first :: last :: rest, line, column, index⟩ columns tokens none
      allowed).token first (last :: rest) = ((inBlock ⟨first :: last :: rest, line, column, index⟩
        columns tokens none allowed).openFlow opening).map dropLineComment := by
    cases brackets <;> rfl
  have noComment : NoComment (last :: rest) := by
    cases brackets <;> simp [NoComment, isGap]
  rw [opens, openFlow, saveKey_none]
  exact congrArg (fun here => Except.ok (inBrackets here _ _ _)) (dropLineComment_eq noComment)

/-- The closing bracket of an empty collection. -/
theorem step_closing (brackets : Brackets first last opening closing) {key : Option PossibleKey}
    (free : Free key) {tokens : List Token} {line index : Nat} (inside : 0 < column)
    (noComment : NoComment rest) :
    (inBrackets ⟨last :: rest, line, column, index⟩ columns tokens key).step
      = .ok (inBlock ⟨rest, line, column + 1, index + 1⟩ columns (⟨closing, line + 1⟩ :: tokens) key
          false) := by
  have checked :
      (inBrackets ⟨last :: rest, line, column, index⟩ columns tokens key).checkKey = .ok () := by
    cases key with
    | none => rfl
    | some k => simp [checkKey, inBrackets, free k rfl]
  have skipped : skipFrom 0 true .blanks true line column index (last :: rest)
      = (⟨last :: rest, line, column, index⟩, true) := by
    cases brackets <;> simp [skipFrom, isBreak]
  refine (step_token checked skipped (ite_self none) fun first => ?_).trans ?_
  · exact absurd first (Nat.ne_of_gt inside)
  · cases brackets <;> exact congrArg Except.ok (dropLineComment_inBlock noComment)

/-- An empty collection is written as brackets. -/
theorem Behind.leads_brackets (brackets : Brackets first last opening closing)
    (behind : Behind (k :: columns) column
      (' ' :: first :: last :: '\n' :: (List.replicate j ' ' ++ body)) allowed s kinds)
    (inside : k < column) (starts : StartsToken body) :
    ∃ t, Leads s t ∧ Settled (k :: columns) j body t (kinds ++ [opening, closing]) := by
  have noComment : NoComment ('\n' :: (List.replicate j ' ' ++ body)) := by simp [NoComment, isGap]
  have startsFirst : StartsToken (first :: last :: '\n' :: (List.replicate j ' ' ++ body)) := by
    cases brackets <;> exact startsToken_cons (by decide) (by decide) (by decide)
  cases behind with
  | @intro tokens line index =>
    have opened := (@step_space columns k column _ allowed first tokens line index inside
      startsFirst).trans (token_opening brackets)
    have closed := @step_closing (k :: columns) (column + 1 + 1) _ first last opening closing
      brackets _ (@free_remembered ⟨first :: last :: '\n' :: (List.replicate j ' ' ++ body), line,
        column + 1, index + 1⟩ columns tokens allowed k (Nat.lt_succ_of_lt inside))
      (⟨opening, line + 1⟩ :: tokens) line (index + 1 + 1) (Nat.succ_pos _) noComment
    refine ⟨_, .tail (.single ⟨opened, rfl, rfl, ?_⟩) ⟨closed, rfl, rfl, Nat.lt_succ_self _⟩, ?_⟩
    · exact Nat.lt_succ_of_lt (Nat.lt_succ_self _)
    · have kinds : scanned tokens ++ [opening, closing]
          = scanned (⟨closing, line + 1⟩ :: ⟨opening, line + 1⟩ :: tokens) := by
        simp [scanned_cons]
      rw [kinds]
      exact settled_lineEnd starts (Nat.lt_succ_of_lt inside) (Nat.le_refl line)

/-! ## Collections -/

theorem noComment_spaces (m : Nat) (starts : StartsToken body) :
    NoComment (List.replicate m ' ' ++ body) := by
  induction m with
  | zero =>
    cases body with
    | nil => simp [NoComment]
    | cons c body =>
      obtain ⟨word, -, notComment⟩ := starts c rfl
      simp [NoComment, word, notComment]
  | succ m ih =>
    rw [NoComment, List.replicate_succ, List.cons_append, List.dropWhile_cons_of_pos (by decide)]
    exact ih

variable {around : List Nat}

/-- An item of a list, up to the next token. -/
theorem leads_item {item : Text} (kept : KeptText true item)
    (settled : Settled columns column ('-' :: ' ' :: ((textLine (column + 2) item).toList ++
      (List.replicate j ' ' ++ body))) s kinds)
    (opens : Opens .blockSequence column columns (column :: around) marks)
    (starts : StartsToken body) (outside : j ≤ column) :
    ∃ t, Leads s t ∧ Settled (column :: around) j body t
      (kinds ++ marks ++ [.blockEntry, textToken item]) := by
  obtain ⟨item, rfl, kept⟩ := kept
  rw [textLine_ofString] at settled
  rw [textToken_ofString]
  obtain ⟨t, leads, behind⟩ := settled.leads_entry opens
  obtain ⟨c, rest, written, startsFirst⟩ := startsToken_scalarLine item (column + 2)
    (List.replicate j ' ' ++ body)
  rw [written] at behind
  obtain ⟨u, leads', settled'⟩ := behind.leads_line (Nat.lt_succ_self column) startsFirst
    fun tokens line index => scansLine_scalarLine kept (by omega) (fun absent => nomatch absent)
      starts outside written (by omega)
  refine ⟨u, leads.trans leads', ?_⟩
  simpa using settled'

/-- The lines of items at a column. -/
def itemsText (column : Nat) (items : List Text) : List Char :=
  items.flatMap fun t =>
    List.replicate column ' ' ++ '-' :: ' ' :: (textLine (column + 2) t).toList

/-- The items of a list, the first of which comes next. Behind an item stands the next one. -/
theorem leads_items (items : List Text) (item : Text) (kept : ∀ t ∈ item :: items, KeptText true t)
    (settled : Settled columns column ('-' :: ' ' :: ((textLine (column + 2) item).toList ++
      (itemsText column items ++ (List.replicate j ' ' ++ body)))) s kinds)
    (opens : Opens .blockSequence column columns (column :: around) marks)
    (starts : StartsToken body) (outside : j ≤ column) :
    ∃ t, Leads s t ∧
      Settled (column :: around) j body t (kinds ++ marks ++ itemTokens (item :: items)) := by
  obtain ⟨keptHere, keptLater⟩ := List.forall_mem_cons.1 kept
  induction items generalizing item columns marks s kinds with
  | nil => exact leads_item keptHere settled opens starts outside
  | cons next items ih =>
    have nextLine : itemsText column (next :: items) ++ (List.replicate j ' ' ++ body)
        = List.replicate column ' ' ++ '-' :: ' ' :: ((textLine (column + 2) next).toList ++
          (itemsText column items ++ (List.replicate j ' ' ++ body))) := by
      simp [itemsText]
    rw [nextLine] at settled
    obtain ⟨t, leads, settled'⟩ := leads_item keptHere settled opens
      (startsToken_cons (by decide) (by decide) (by decide)) (Nat.le_refl column)
    obtain ⟨keptNext, keptRest⟩ := List.forall_mem_cons.1 keptLater
    obtain ⟨u, leads', settled''⟩ := ih next keptLater settled' .next keptNext keptRest
    refine ⟨u, leads.trans leads', ?_⟩
    simpa [itemTokens] using settled''

/-! ## Tables -/

theorem toList_writeField_simple {name : String} (simple : isSimpleKey name = true) (v : Value) :
    (writeField k (Text.ofString name, v)).toList
      = (flatText k name).toList ++ ':' :: (v.write k false).toList := by
  simp [writeField, simpleKey?_ofString, simple]

theorem toList_writeField_marked {name : String} (long : isSimpleKey name = false) (v : Value) :
    (writeField k (Text.ofString name, v)).toList
      = '?' :: ' ' :: ((scalarLine (k + 4) name).toList ++
        (List.replicate k ' ' ++ ':' :: (v.write k true).toList)) := by
  simp [writeField, simpleKey?_ofString, textLine_ofString, long, toList_spaces]

theorem startsToken_writeField (indent : Nat) {field : Text × Value} (kept : KeptName field.1)
    (tail : List Char) :
    ∃ c rest, (writeField indent field).toList ++ tail = c :: rest ∧ StartsToken (c :: rest) := by
  obtain ⟨_, value⟩ := field
  obtain ⟨name, rfl, -, -⟩ := kept
  cases simple : isSimpleKey name with
  | true =>
    have flat := flat_of_isSimpleKey simple
    rw [toList_writeField_simple simple, List.append_assoc]
    exact startsToken_flatText flat indent _
  | false =>
    rw [toList_writeField_marked simple]
    exact ⟨_, _, rfl, startsToken_cons (by decide) (by decide) (by decide)⟩

/-- What stands between a colon and the first line of a collection. -/
def entryGap (k : Nat) (alone : Bool) : List Char :=
  if alone then List.replicate 3 ' ' else '\n' :: List.replicate (k + 4) ' '

section Written

variable (alone : Bool) (text : String) (item : Text) (items : List Text)
  (field : Text × Value) (fields : List (Text × Value))

theorem toList_write_int (m : Int) :
    ((Value.int m).write k alone).toList = ' ' :: ((toString m).toList ++ ['\n']) := by
  simp [Value.write]

theorem toList_write_bool (b : Bool) :
    ((Value.bool b).write k alone).toList = ' ' :: ((boolWord b).toList ++ ['\n']) := by
  simp [Value.write, boolWord]

theorem toList_write_text :
    ((Value.text text).write k alone).toList = ' ' :: (scalarLine (k + 4) text).toList := by
  simp [Value.write, textLine_ofString]

theorem toList_write_noItems :
    ((Value.list []).write k alone).toList = [' ', '[', ']', '\n'] := by
  simp [Value.write]

theorem toList_write_noFields :
    ((Value.table []).write k alone).toList = [' ', '\x7b', '\x7d', '\n'] := by
  simp [Value.write]

theorem toList_write_items :
    ((Value.list (item :: items)).write k alone).toList = entryGap k alone ++
      '-' :: ' ' :: ((textLine (k + 6) item).toList ++ itemsText (k + 4) items) := by
  cases alone <;>
    simp [Value.write, entryGap, itemsText, toList_spaces, String.toList_join, List.flatMap_map]

theorem toList_write_fields :
    ((Value.table (field :: fields)).write k alone).toList = entryGap k alone ++
      ((writeField (k + 4) field).toList ++ (writeFields (k + 4) fields).toList) := by
  cases alone <;> simp [Value.write, entryGap, toList_spaces]

end Written

theorem Behind.settled_entryGap {alone : Bool} (starts : StartsToken body)
    (first : alone = true → column = k + 1)
    (behind : Behind columns column (entryGap k alone ++ body) alone s kinds) :
    Settled columns (k + 4) body s kinds := by
  cases alone with
  | true =>
    obtain rfl := first rfl
    exact @Behind.settled_spaces columns (k + 1) 3 body s kinds starts behind
  | false => exact behind.settled_newline starts

/-- What is written behind a colon does not touch it, and it does not start with a comment. -/
theorem write_starts {v : Value} (keeps : v.Keeps n) (k : Nat) (alone : Bool) (tail : List Char) :
    endsWord ((v.write k alone).toList ++ tail) = true ∧
      NoComment ((v.write k alone).toList ++ tail) := by
  have space {body : List Char} (starts : StartsToken body) :
      endsWord (' ' :: body) = true ∧ NoComment (' ' :: body) :=
    ⟨rfl, noComment_spaces 1 starts⟩
  have gap {body : List Char} (starts : StartsToken body) :
      endsWord (entryGap k alone ++ body) = true ∧ NoComment (entryGap k alone ++ body) := by
    cases alone with
    | true => exact ⟨rfl, noComment_spaces 3 starts⟩
    | false => exact ⟨rfl, by simp [entryGap, NoComment, isGap]⟩
  have word {text : String} (plain : IsPlain text.toList) :
      endsWord (' ' :: (text.toList ++ ['\n']) ++ tail) = true ∧
        NoComment (' ' :: (text.toList ++ ['\n']) ++ tail) := by
    obtain ⟨c, rest, written, starts⟩ := startsToken_plain plain (['\n'] ++ tail)
    rw [List.cons_append, List.append_assoc, written]
    exact space starts
  cases keeps with
  | @int _ m =>
    rw [toList_write_int]
    exact word (isPlain_toString m)
  | bool b =>
    rw [toList_write_bool]
    exact word (isPlain_boolWord b)
  | text kept =>
    obtain ⟨s, rfl, -⟩ := kept
    obtain ⟨c, rest, written, starts⟩ := startsToken_scalarLine s (k + 4) tail
    rw [toList_write_text, List.cons_append, written]
    exact space starts
  | @list _ items =>
    cases items with
    | nil => simp [toList_write_noItems, endsWord, NoComment, isGap]
    | cons item items =>
      rw [toList_write_items, List.append_assoc, List.cons_append]
      exact gap (startsToken_cons (by decide) (by decide) (by decide))
  | @table _ fields distinct names =>
    cases fields with
    | nil => simp [toList_write_noFields, endsWord, NoComment, isGap]
    | cons field fields =>
      obtain ⟨c, rest, written, starts⟩ := startsToken_writeField (k + 4)
        (names field List.mem_cons_self) ((writeFields (k + 4) fields).toList ++ tail)
      rw [toList_write_fields, List.append_assoc, List.append_assoc, written]
      exact gap starts

/-- The tokens of a value are scanned, up to the next token. With `alone` the value stands behind a
colon that starts a line. -/
def ScansValue (n : Nat) (v : Value) : Prop :=
  ∀ ⦃k : Nat⦄ ⦃columns : List Nat⦄ ⦃column : Nat⦄ ⦃alone : Bool⦄ ⦃s : ScanState⦄
    ⦃kinds : List TokenKind⦄ ⦃j : Nat⦄ ⦃body : List Char⦄, columns.length + 1 + n ≤ mostOpen →
    k < column → (alone = true → column = k + 1) → StartsToken body → j ≤ k →
    Behind (k :: columns) column ((v.write k alone).toList ++ (List.replicate j ' ' ++ body)) alone
      s kinds →
    ∃ t, Leads s t ∧ Settled (k :: columns) j body t (kinds ++ v.tokens)

/-- An entry of a table, up to the next token. -/
theorem leads_field {name : Text} {v : Value} (kept : KeptName name) (keeps : v.Keeps n)
    (scans : ScansValue n v)
    (settled : Settled columns column ((writeField column (name, v)).toList ++
      (List.replicate j ' ' ++ body)) s kinds)
    (opens : Opens .blockMapping column columns (column :: around) marks)
    (room : around.length + 1 + n ≤ mostOpen) (starts : StartsToken body) (outside : j ≤ column) :
    ∃ t, Leads s t ∧
      Settled (column :: around) j body t (kinds ++ marks ++ fieldTokens (name, v)) := by
  obtain ⟨name, rfl, -, kept⟩ := kept
  rw [fieldTokens, textToken_ofString]
  cases simple : isSimpleKey name with
  | true =>
    obtain ⟨word, noComment⟩ := write_starts keeps column false (List.replicate j ' ' ++ body)
    rw [toList_writeField_simple simple, List.append_assoc, List.cons_append] at settled
    obtain ⟨t, column', inside, leads, behind⟩ := settled.leads_key simple word noComment opens
    obtain ⟨u, leads', settled'⟩ := scans room inside (fun absent => Bool.noConfusion absent) starts
      outside behind
    refine ⟨u, leads.trans leads', ?_⟩
    simpa using settled'
  | false =>
    obtain ⟨word, noComment⟩ := write_starts keeps column true (List.replicate j ' ' ++ body)
    obtain ⟨c, rest, written, startsFirst⟩ := startsToken_scalarLine name (column + 4)
      (List.replicate column ' ' ++ ':' :: ((v.write column true).toList ++
        (List.replicate j ' ' ++ body)))
    rw [toList_writeField_marked simple, List.cons_append, List.cons_append, List.append_assoc,
      List.append_assoc, List.cons_append, written] at settled
    -- the key and the colon stand on lines of their own
    obtain ⟨t, leads, behind⟩ := settled.leads_keyMark (noComment_spaces 1 startsFirst) opens
    obtain ⟨u, leads', settled'⟩ := behind.leads_line (Nat.lt_succ_self column) startsFirst
      fun tokens line index => scansLine_scalarLine (kept simple) (by omega) (fun _ => rfl)
        (startsToken_cons (by decide) (by decide) (by decide)) (Nat.le_refl column) written
        (by omega)
    obtain ⟨w, leads'', behind'⟩ := settled'.leads_colon word noComment
    obtain ⟨x, leads₃, settled''⟩ := scans room (Nat.lt_succ_self column) (fun _ => rfl) starts
      outside behind'
    refine ⟨x, ((leads.trans leads').trans leads'').trans leads₃, ?_⟩
    simpa using settled''

/-- The entries of a table, the first of which comes next. Behind an entry stands the next one. -/
theorem leads_fields (fields : List (Text × Value)) (field : Text × Value)
    (names : ∀ f ∈ field :: fields, KeptName f.1)
    (values : ∀ f ∈ field :: fields, f.2.Keeps n ∧ ScansValue n f.2)
    (settled : Settled columns column ((writeField column field).toList ++
      ((writeFields column fields).toList ++ (List.replicate j ' ' ++ body))) s kinds)
    (opens : Opens .blockMapping column columns (column :: around) marks)
    (room : around.length + 1 + n ≤ mostOpen) (starts : StartsToken body) (outside : j ≤ column) :
    ∃ t, Leads s t ∧ Settled (column :: around) j body t
      (kinds ++ marks ++ (fieldTokens field ++ fieldsTokens fields)) := by
  induction fields generalizing field columns marks s kinds with
  | nil =>
    obtain ⟨keeps, scans⟩ := values field List.mem_cons_self
    obtain ⟨t, leads, settled'⟩ := leads_field (names field List.mem_cons_self) keeps scans
      (by simpa [writeFields] using settled) opens room starts outside
    refine ⟨t, leads, ?_⟩
    simpa [fieldsTokens] using settled'
  | cons next fields ih =>
    obtain ⟨keeps, scans⟩ := values field List.mem_cons_self
    have nextLine : (writeFields column (next :: fields)).toList ++ (List.replicate j ' ' ++ body)
        = List.replicate column ' ' ++ ((writeField column next).toList ++
          ((writeFields column fields).toList ++ (List.replicate j ' ' ++ body))) := by
      simp [writeFields, String.toList_append, toList_spaces]
    obtain ⟨c, rest, written, startsNext⟩ := startsToken_writeField column
      (names next (by simp)) ((writeFields column fields).toList ++ (List.replicate j ' ' ++ body))
    rw [nextLine, written] at settled
    obtain ⟨t, leads, settled'⟩ := leads_field (names field List.mem_cons_self) keeps scans settled
      opens room startsNext (Nat.le_refl column)
    rw [← written] at settled'
    obtain ⟨u, leads', settled''⟩ := ih next (fun f mem => names f (List.mem_cons_of_mem field mem))
      (fun f mem => values f (List.mem_cons_of_mem field mem)) settled' .next
    refine ⟨u, leads.trans leads', ?_⟩
    simpa [fieldsTokens] using settled''

/-- The first mark of a collection that is indented below the node around it opens it. -/
theorem Opens.indented (collection : TokenKind) (room : columns.length + 1 + (n + 1) ≤ mostOpen) :
    Opens collection (k + 4) (k :: columns) ((k + 4) :: k :: columns) [collection] := by
  refine .first (fun l mem => ?_) ?_
  · obtain rfl := Option.some.inj mem
    exact Nat.lt_add_of_pos_right (by decide)
  · rw [List.length_cons]
    omega

/-- A word behind a colon. -/
theorem Behind.leads_word {text : String} (plain : IsPlain text.toList) (inside : k < column)
    (starts : StartsToken body) (outside : j ≤ k)
    (behind : Behind (k :: columns) column
      (' ' :: (text.toList ++ ['\n']) ++ (List.replicate j ' ' ++ body)) allowed s kinds) :
    ∃ t, Leads s t ∧ Settled (k :: columns) j body t (kinds ++ [.scalar text true]) := by
  obtain ⟨c, rest, written, startsFirst⟩ := startsToken_plain plain
    ('\n' :: (List.replicate j ' ' ++ body))
  rw [List.cons_append, List.append_assoc, List.singleton_append, written] at behind
  obtain ⟨t, leads, settled⟩ := behind.leads_line inside startsFirst
    fun tokens line index => scansLine_plain plain starts outside written (by omega)
  rw [String.ofList_toList] at settled
  exact ⟨t, leads, settled⟩

/-- The tokens of a value that is kept are scanned. -/
theorem leads_value {v : Value} (keeps : v.Keeps n) : ScansValue n v := by
  induction keeps with
  | @int n m fits =>
    intro k columns column alone s kinds j body room inside first starts outside behind
    rw [toList_write_int] at behind
    exact behind.leads_word (isPlain_toString m) inside starts outside
  | bool b =>
    intro k columns column alone s kinds j body room inside first starts outside behind
    rw [toList_write_bool] at behind
    exact behind.leads_word (isPlain_boolWord b) inside starts outside
  | text kept =>
    intro k columns column alone state kinds j body room inside first starts outside behind
    obtain ⟨s, rfl, kept⟩ := kept
    rw [Value.tokens, textToken_ofString]
    obtain ⟨c, rest, written, startsFirst⟩ := startsToken_scalarLine s (k + 4)
      (List.replicate j ' ' ++ body)
    rw [toList_write_text, List.cons_append, written] at behind
    exact behind.leads_line inside startsFirst fun tokens line index =>
      scansLine_scalarLine kept (by omega) (fun _ => rfl) starts outside written (by omega)
  | @list n items kept =>
    intro k columns column alone s kinds j body room inside first starts outside behind
    cases items with
    | nil =>
      rw [toList_write_noItems] at behind
      exact behind.leads_brackets .sequence inside starts
    | cons item items =>
      rw [toList_write_items, List.append_assoc, List.cons_append, List.cons_append,
        List.append_assoc] at behind
      have settled := behind.settled_entryGap (startsToken_cons (by decide) (by decide) (by decide))
        first
      obtain ⟨t, leads, settled'⟩ := leads_items items item kept settled (.indented _ room) starts
        (by omega)
      refine ⟨t, leads, ?_⟩
      have left := settled'.leave (by omega)
      simpa [Value.tokens] using left
  | @table n fields distinct names values ih =>
    intro k columns column alone s kinds j body room inside first starts outside behind
    cases fields with
    | nil =>
      rw [toList_write_noFields] at behind
      exact behind.leads_brackets .mapping inside starts
    | cons field fields =>
      obtain ⟨c, rest, written, startsFirst⟩ := startsToken_writeField (k + 4)
        (names field List.mem_cons_self)
        ((writeFields (k + 4) fields).toList ++ (List.replicate j ' ' ++ body))
      rw [toList_write_fields, List.append_assoc, List.append_assoc, written] at behind
      have settled := behind.settled_entryGap startsFirst first
      rw [← written] at settled
      obtain ⟨t, leads, settled'⟩ := leads_fields fields field names
        (fun f mem => ⟨values f mem, ih f mem⟩) settled (.indented _ room)
        (by rw [List.length_cons]; omega) starts (by omega)
      refine ⟨t, leads, ?_⟩
      have left := settled'.leave (by omega)
      simpa [Value.tokens] using left

end ScanState

end Yaml

end CodeSmell
