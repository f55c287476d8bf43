import CodeSmell.Proofs.Yaml.Blocks
import Mathlib.Logic.Relation

/-!
# Scanning a written document

In block style the state of the scanner is the open columns, the tokens so far, and the place of a
possible key (`ScanState.inBlock`). What one step does to such a state is said here once for each
mark and each form of a scalar. Where a nested collection ends is not known before the next token is
met, so that the state behind a value is described by what the next step will do (`Settled`): it
closes the columns that are deeper than the next token, and that token is where the caller says.
-/

set_option autoImplicit false

namespace CodeSmell

namespace Yaml

namespace ScanState

/-! ## Steps and runs -/

/-- A step in the middle of a text. -/
def Steps (s t : ScanState) : Prop :=
  s.step = .ok t ∧ t.ended = false ∧ t.behind = none ∧ t.here.rest.length < s.here.rest.length

/-- Some steps in the middle of a text. -/
abbrev Leads : ScanState → ScanState → Prop := Relation.ReflTransGen Steps

/-- If steps lead to a state whose next step ends the text, a run gives the tokens of that step. -/
theorem run_of_leads {s last e : ScanState} (leads : Leads s last) (final : last.step = .ok e)
    (ended : e.ended = true) (fuel : Nat) (enough : s.here.rest.length < fuel) :
    s.run fuel = ⟨e.tokens.reverse, none⟩ := by
  induction leads using Relation.ReflTransGen.head_induction_on generalizing fuel with
  | refl =>
    cases fuel with
    | zero => cases enough
    | succ fuel => simp [run, final, ended]
  | head step _ ih =>
    obtain ⟨next, goesOn, whole, shorter⟩ := step
    cases fuel with
    | zero => cases enough
    | succ fuel =>
      have rest := ih fuel (by omega)
      simp [run, next, goesOn, shortage?, whole, rest]

/-! ## States in block style -/

/-- The state between two tokens of block style. -/
def inBlock (here : Cursor) (columns : List Nat) (tokens : List Token) (key : Option PossibleKey)
    (allowed : Bool) : ScanState :=
  { here := here, tokens := tokens, count := tokens.length, columns := columns, keys := [key],
    keyAllowed := allowed }

variable {here : Cursor} {columns : List Nat} {tokens : List Token} {key : Option PossibleKey}
  {allowed : Bool}

@[simp]
theorem here_inBlock : (inBlock here columns tokens key allowed).here = here := rfl

@[simp]
theorem columns_inBlock : (inBlock here columns tokens key allowed).columns = columns := rfl

@[simp]
theorem count_inBlock : (inBlock here columns tokens key allowed).count = tokens.length := rfl

@[simp]
theorem keys_inBlock : (inBlock here columns tokens key allowed).keys = [key] := rfl

@[simp]
theorem keyAllowed_inBlock : (inBlock here columns tokens key allowed).keyAllowed = allowed := rfl

@[simp]
theorem inFlow_inBlock : (inBlock here columns tokens key allowed).inFlow = false := rfl

@[simp]
theorem inner_inBlock (k : Nat) :
    (inBlock here (k :: columns) tokens key allowed).inner = k + 1 := rfl

theorem close_inBlock (place : Cursor) (n : Nat) :
    (inBlock here columns tokens key allowed).close place n
      = inBlock here (columns.drop n)
        (List.replicate n ⟨.blockEnd, place.line + 1⟩ ++ tokens) key allowed := by
  induction n generalizing columns tokens with
  | zero => rfl
  | succ n ih =>
    have next : (inBlock here columns tokens key allowed).close place (n + 1)
        = (inBlock here (columns.drop 1) (⟨.blockEnd, place.line + 1⟩ :: tokens) key
          allowed).close place n := rfl
    rw [next, ih, List.drop_drop, List.replicate_succ', List.append_assoc, Nat.add_comm 1 n]
    rfl

/-- The deeper columns are closed in front of a token. -/
theorem closeDeeper_inBlock (place : Cursor) {deeper around : List Nat}
    (inside : ∀ e ∈ deeper, here.column < e) (outside : ∀ k ∈ around.head?, k ≤ here.column) :
    (inBlock here (deeper ++ around) tokens key allowed).closeDeeper place
      = inBlock here around
        (List.replicate deeper.length ⟨.blockEnd, place.line + 1⟩ ++ tokens) key allowed := by
  have split : (deeper ++ around).takeWhile (here.column < ·) = deeper := by
    rw [List.takeWhile_append_of_pos fun e mem => decide_eq_true (inside e mem)]
    cases around with
    | nil => simp
    | cons k around =>
      have notDeeper : ¬here.column < k := Nat.not_lt.2 (outside k rfl)
      simp [notDeeper]
  have closed : (inBlock here (deeper ++ around) tokens key allowed).closeDeeper place
      = (inBlock here (deeper ++ around) tokens key allowed).close place
        ((deeper ++ around).takeWhile (here.column < ·)).length := rfl
  rw [closed, split, close_inBlock, List.drop_left]

/-- A possible key that may turn out to be none. -/
def Free (key : Option PossibleKey) : Prop := ∀ k ∈ key, k.required = false

theorem free_none : Free none := fun _ absent => nomatch absent

theorem dropKey_inBlock (free : Free key) :
    (inBlock here columns tokens key allowed).dropKey
      = .ok (inBlock here columns tokens none allowed) := by
  cases key with
  | none => rfl
  | some k =>
    have free := free k rfl
    simp [dropKey, inBlock, free]

/-- The place in front of a word is remembered where a key is allowed. -/
theorem saveKey_inBlock (free : Free key) :
    (inBlock here columns tokens key true).saveKey
      = .ok (inBlock here columns tokens (some ⟨tokens.length, here,
          (inBlock here columns tokens none true).inner = here.column + 1⟩) true) := by
  simp only [saveKey, inBlock, if_true]
  rw [← inBlock, dropKey_inBlock free]
  rfl

theorem checkKey_inBlock (free : Free key) :
    (inBlock here columns tokens key allowed).checkKey = .ok () := by
  cases key with
  | none => rfl
  | some k =>
    have free := free k rfl
    simp [checkKey, inBlock, free]

/-- A step at the end of a text. -/
theorem step_finish {s : ScanState} {line column index : Nat} {allowed : Bool}
    (checked : s.checkKey = .ok ())
    (skipped : skipFrom s.marked s.inFlow .blanks s.keyAllowed s.here.line s.here.column
      s.here.index s.here.rest = (⟨[], line, column, index⟩, allowed))
    (whole : ({ s with
      here := ⟨[], line, column, index⟩, keyAllowed := allowed } : ScanState).shortage? 4 = none) :
    s.step = (({ s with
      here := ⟨[], line, column, index⟩, keyAllowed := allowed } : ScanState).closeDeeper
        s.here).finish := by
  rw [step, checked]
  simp only [bind, Except.bind, skipped, whole]

/-- A step that scans a token. -/
theorem step_token {s : ScanState} {c : Char} {rest : List Char} {line column index : Nat}
    {allowed : Bool} (checked : s.checkKey = .ok ())
    (skipped : skipFrom s.marked s.inFlow .blanks s.keyAllowed s.here.line s.here.column
      s.here.index s.here.rest = (⟨c :: rest, line, column, index⟩, allowed))
    (whole : ({ s with
      here := ⟨c :: rest, line, column, index⟩, keyAllowed := allowed } : ScanState).shortage? 4
        = none)
    (notEdge : column = 0 → c ≠ '%' ∧ isBoundary (c :: rest) = false) :
    s.step = (({ s with
      here := ⟨c :: rest, line, column, index⟩, keyAllowed := allowed } : ScanState).closeDeeper
        s.here).token c rest := by
  have noDirective : (decide (column = 0) && decide (c = '%')) = false := by
    by_cases first : column = 0
    · simp [(notEdge first).1]
    · simp [first]
  have noBoundary : Cursor.atBoundary ⟨c :: rest, line, column, index⟩ = false := by
    by_cases first : column = 0
    · simp [Cursor.atBoundary, (notEdge first).2]
    · simp [Cursor.atBoundary, first]
  rw [step, checked]
  simp only [bind, Except.bind, skipped, whole, noDirective, noBoundary, Bool.false_eq_true,
    if_false]

theorem step_inBlock {deeper around : List Nat} {c : Char} {rest : List Char}
    {line column index : Nat} {allowed' : Bool}
    (checked : (inBlock here (deeper ++ around) tokens key allowed).checkKey = .ok ())
    (skipped : skipFrom 0 false .blanks allowed here.line here.column here.index here.rest
      = (⟨c :: rest, line, column, index⟩, allowed'))
    (inside : ∀ e ∈ deeper, column < e) (outside : ∀ k ∈ around.head?, k ≤ column)
    (notEdge : column = 0 → c ≠ '%' ∧ isBoundary (c :: rest) = false) :
    (inBlock here (deeper ++ around) tokens key allowed).step
      = (inBlock ⟨c :: rest, line, column, index⟩ around
          (List.replicate deeper.length ⟨.blockEnd, here.line + 1⟩ ++ tokens) key
          allowed').token c rest := by
  have closed := @closeDeeper_inBlock ⟨c :: rest, line, column, index⟩ tokens key allowed' here
    deeper around inside outside
  exact (step_token checked skipped (ite_self none) notEdge).trans
    (congrArg (·.token c rest) closed)

/-! ## Marks -/

/-- Puts a token behind the first tokens. -/
theorem insertAt_inBlock (later earlier : List Token) (place : Cursor) (kind : TokenKind) :
    (inBlock here columns (later ++ earlier) key allowed).insertAt earlier.length place kind
      = inBlock here columns (later ++ ⟨kind, place.line + 1⟩ :: earlier) key allowed := by
  simp [insertAt, inBlock, Nat.add_assoc]

/-- How a mark at a column changes the open columns: the first one of a collection opens it, and the
others leave the columns as they are. -/
inductive Opens (collection : TokenKind) (column : Nat) :
    List Nat → List Nat → List TokenKind → Prop
  | first {columns : List Nat} (deeper : ∀ k ∈ columns.head?, k < column)
    (room : columns.length < mostOpen) :
    Opens collection column columns (column :: columns) [collection]
  | next {columns : List Nat} : Opens collection column (column :: columns) (column :: columns) []

theorem openAt_inBlock {collection : TokenKind} {column : Nat} {columns' : List Nat}
    {marks : List TokenKind} (opens : Opens collection column columns columns' marks)
    (later earlier : List Token) (place : Cursor) :
    (inBlock here columns (later ++ earlier) key allowed).openAt earlier.length column place
        collection
      = .ok (inBlock here columns' (later ++ (marks.map (⟨·, place.line + 1⟩) ++ earlier)) key
          allowed) := by
  cases opens with
  | first deeper room =>
    have outside : ¬column < (inBlock here columns (later ++ earlier) key allowed).inner := by
      cases columns with
      | nil => exact Nat.not_lt_zero column
      | cons k columns =>
        have less := deeper k rfl
        change ¬column < k + 1
        omega
    have room : ¬mostOpen ≤ columns.length := Nat.not_le.2 room
    have inserted := @insertAt_inBlock here (column :: columns) key allowed later earlier place
      collection
    rw [openAt, inFlow_inBlock, Bool.false_or, if_neg (by simpa using outside), columns_inBlock,
      if_neg room]
    exact congrArg Except.ok inserted
  | next =>
    rw [openAt]
    simp

/-- The mark of an item or of a key. -/
theorem mark_inBlock {c : Char} {rest : List Char} {line column index : Nat}
    {kind collection : TokenKind} {columns' : List Nat} {marks : List TokenKind}
    (opens : Opens collection column columns columns' marks) (free : Free key) (refusal : String)
    (allowed : Bool) :
    (inBlock ⟨c :: rest, line, column, index⟩ columns tokens key true).mark kind collection refusal
        allowed
      = .ok (inBlock ⟨rest, line, column + 1, index + 1⟩ columns'
          (⟨kind, line + 1⟩ :: (marks.map (⟨·, line + 1⟩) ++ tokens)) none allowed) := by
  have opened := @openAt_inBlock ⟨c :: rest, line, column, index⟩ columns key true collection column
    columns' marks opens [] tokens ⟨c :: rest, line, column, index⟩
  simp only [List.nil_append] at opened
  rw [mark, if_neg (by simp)]
  simp only [here_inBlock, count_inBlock, opened, bind, Except.bind, dropKey_inBlock free]
  rfl

/-- No comment starts behind the blanks of a line. -/
def NoComment (rest : List Char) : Prop := (rest.dropWhile isGap).head? ≠ some '#'

theorem dropLineComment_eq {c : Cursor} (none : NoComment c.rest) : c.dropLineComment = c := by
  have split : c.rest.drop (c.rest.takeWhile isGap).length = c.rest.dropWhile isGap := by
    calc c.rest.drop (c.rest.takeWhile isGap).length
        = (c.rest.takeWhile isGap ++ c.rest.dropWhile isGap).drop
            (c.rest.takeWhile isGap).length := by rw [List.takeWhile_append_dropWhile]
      _ = c.rest.dropWhile isGap := List.drop_left
  rw [Cursor.dropLineComment]
  simp only [split]
  rw [if_neg]
  intro both
  rw [Bool.and_eq_true, decide_eq_true_eq, decide_eq_true_eq] at both
  exact none both.2

theorem dropLineComment_inBlock (none : NoComment here.rest) :
    (inBlock here columns tokens key allowed).dropLineComment
      = inBlock here columns tokens key allowed := by
  rw [dropLineComment, here_inBlock, dropLineComment_eq none]
  rfl

/-- The mark of a value behind its key. -/
theorem value_inBlock {rest : List Char} {line column index : Nat} {place : Cursor}
    {required : Bool} {columns' : List Nat} {marks : List TokenKind} {later earlier : List Token}
    (sameLine : place.line = line) (near : index ≤ place.index + 1024)
    (opens : Opens .blockMapping place.column columns columns' marks) :
    (inBlock ⟨':' :: rest, line, column, index⟩ columns (later ++ earlier)
        (some ⟨earlier.length, place, required⟩) allowed).value
      = .ok (inBlock ⟨rest, line, column + 1, index + 1⟩ columns'
          (⟨.value, line + 1⟩ :: (later ++ ⟨.key, line + 1⟩ ::
            (marks.map (⟨·, line + 1⟩) ++ earlier))) none false) := by
  subst sameLine
  have opened := @openAt_inBlock ⟨':' :: rest, place.line, column, index⟩ columns none allowed
    .blockMapping place.column columns' marks opens (later ++ [⟨.key, place.line + 1⟩]) earlier
    place
  have inserted := @insertAt_inBlock ⟨':' :: rest, place.line, column, index⟩ columns none allowed
    later earlier place .key
  rw [List.append_assoc, List.singleton_append, List.append_assoc, List.singleton_append] at opened
  have reaches : (inBlock ⟨':' :: rest, place.line, column, index⟩ columns (later ++ earlier)
      (some ⟨earlier.length, place, required⟩) allowed).reaches ⟨earlier.length, place, required⟩
      = true := by
    simp [ScanState.reaches, near]
  rw [value]
  simp only [keys_inBlock, List.head?_cons, Option.join_some, reaches]
  erw [inserted, opened]
  rfl

/-- The mark of a value behind a key with a mark of its own. A possible key on an earlier line does
not become one. -/
theorem value_inBlock_alone {rest : List Char} {line column index : Nat} (free : Free key)
    (earlier : ∀ k ∈ key, k.place.line ≠ line) :
    (inBlock ⟨':' :: rest, line, column, index⟩ (column :: columns) tokens key true).value
      = .ok (inBlock ⟨rest, line, column + 1, index + 1⟩ (column :: columns)
          (⟨.value, line + 1⟩ :: tokens) none true) := by
  have opened := @openAt_inBlock ⟨':' :: rest, line, column, index⟩ (column :: columns) none true
    .blockMapping column _ _ .next [] tokens ⟨':' :: rest, line, column, index⟩
  have anonymous : value.anonymous
      (inBlock ⟨':' :: rest, line, column, index⟩ (column :: columns) tokens none true)
      = .ok (inBlock ⟨':' :: rest, line, column, index⟩ (column :: columns) tokens none true) := by
    rw [value.anonymous, if_neg (by simp)]
    exact congrArg (Except.map _) opened
  rw [value]
  cases key with
  | none =>
    simp only [keys_inBlock, List.head?_cons, Option.join_some, anonymous]
    rfl
  | some k =>
    have far : (inBlock ⟨':' :: rest, line, column, index⟩ (column :: columns) tokens (some k)
        true).reaches k = false := by
      simp [ScanState.reaches, earlier k rfl]
    have free := free k rfl
    simp only [keys_inBlock, List.head?_cons, Option.join_some, far, free]
    erw [anonymous]
    rfl

/-- What is remembered in front of a word. -/
def remembered (here : Cursor) (columns : List Nat) (tokens : List Token) (allowed : Bool) :
    Option PossibleKey :=
  if allowed then
    some ⟨tokens.length, here, (inBlock here columns tokens none true).inner = here.column + 1⟩
  else none

theorem saveKey_none :
    (inBlock here columns tokens none allowed).saveKey
      = .ok (inBlock here columns tokens (remembered here columns tokens allowed) allowed) := by
  cases allowed with
  | false => rfl
  | true => exact saveKey_inBlock free_none

/-- A word inside a collection need not be a key. -/
theorem free_remembered {k : Nat} (inside : k < here.column) :
    Free (remembered here (k :: columns) tokens allowed) := by
  intro key mem
  cases allowed with
  | false => cases mem
  | true =>
    obtain rfl := Option.some.inj mem
    have notFirst : k + 1 ≠ here.column + 1 := by omega
    exact decide_eq_false notFirst

theorem line_remembered :
    ∀ k ∈ remembered here columns tokens allowed, k.place.line = here.line := by
  intro key mem
  cases allowed with
  | false => cases mem
  | true =>
    obtain rfl := Option.some.inj mem
    rfl

/-! ## Between lines -/

theorem skipFrom_spaces (n line column index : Nat) {body : List Char} (starts : StartsToken body) :
    skipFrom 0 false .blanks allowed line column index (List.replicate n ' ' ++ body)
      = (⟨body, line, column + n, index + n⟩, allowed) := by
  induction n generalizing column index with
  | zero =>
    cases body with
    | nil => simp [skipFrom]
    | cons c body =>
      obtain ⟨word, notBreak, notComment⟩ := starts c rfl
      have notGap : c ≠ ' ' ∧ c ≠ '\t' := by simpa [isGap] using word
      simp [skipFrom, notBreak, notComment, notGap]
  | succ n ih =>
    rw [List.replicate_succ, List.cons_append, skipFrom]
    simp [ih, Nat.add_comm, Nat.add_left_comm]

theorem skipFrom_newline (j line column index : Nat) {body : List Char}
    (starts : StartsToken body) :
    skipFrom 0 false .blanks allowed line column index ('\n' :: (List.replicate j ' ' ++ body))
      = (⟨body, line + 1, j, index + 1 + j⟩, true) := by
  rw [skipFrom]
  simp [isBreak, skipFrom_spaces j (line + 1) 0 (index + 1) starts]

/-- The kinds of the tokens so far, in the order of the text. -/
def scanned (tokens : List Token) : List TokenKind := (tokens.map Token.kind).reverse

theorem scanned_cons (token : Token) :
    scanned (token :: tokens) = scanned tokens ++ [token.kind] := by
  simp [scanned]

/-- What is known behind a value: the next token starts with `body` at a column, and once the deeper
collections are closed the columns and the kinds of the tokens are the given ones. No key on the
line of that token is pending. -/
inductive Settled (columns : List Nat) (column : Nat) (body : List Char) :
    ScanState → List TokenKind → Prop
  | intro {here : Cursor} {deeper : List Nat} {tokens : List Token} {key : Option PossibleKey}
    {allowed : Bool} {line index : Nat} (free : Free key)
    (earlier : ∀ k ∈ key, k.place.line ≠ line) (inside : ∀ e ∈ deeper, column < e)
    (skipped : skipFrom 0 false .blanks allowed here.line here.column here.index here.rest
      = (⟨body, line, column, index⟩, true)) (shorter : body.length ≤ here.rest.length) :
    Settled columns column body (inBlock here (deeper ++ columns) tokens key allowed)
      (scanned tokens ++ List.replicate deeper.length .blockEnd)

/-- A collection ends in front of a token that is indented less. -/
theorem Settled.leave {columns : List Nat} {k column : Nat} {body : List Char} {s : ScanState}
    {kinds : List TokenKind} (settled : Settled (k :: columns) column body s kinds)
    (less : column < k) : Settled columns column body s (kinds ++ [.blockEnd]) := by
  cases settled with
  | @intro here deeper tokens key allowed line index free earlier inside skipped shorter =>
    have inside' : ∀ e ∈ deeper ++ [k], column < e := by
      intro e mem
      rcases List.mem_append.1 mem with mem | mem
      · exact inside e mem
      · rwa [List.mem_singleton.1 mem]
    have left := @Settled.intro columns column body here (deeper ++ [k]) tokens key allowed line
      index free earlier inside' skipped shorter
    rwa [List.append_assoc, List.singleton_append, List.length_append, List.length_singleton,
      List.replicate_add, ← List.append_assoc] at left

theorem Settled.goesOn {columns : List Nat} {column : Nat} {body : List Char} {s : ScanState}
    {kinds : List TokenKind} (settled : Settled columns column body s kinds) :
    s.ended = false ∧ s.behind = none := by
  cases settled
  exact ⟨rfl, rfl⟩

theorem scanned_replicate (n line : Nat) :
    scanned (List.replicate n ⟨.blockEnd, line⟩ ++ tokens)
      = scanned tokens ++ List.replicate n .blockEnd := by
  simp [scanned, List.map_append, List.reverse_append]

/-- The step at a token that comes next. -/
theorem Settled.step {columns : List Nat} {column : Nat} {c : Char} {rest : List Char}
    {s : ScanState} {kinds : List TokenKind} (settled : Settled columns column (c :: rest) s kinds)
    (outside : ∀ k ∈ columns.head?, k ≤ column)
    (notEdge : column = 0 → c ≠ '%' ∧ isBoundary (c :: rest) = false) :
    ∃ (tokens : List Token) (key : Option PossibleKey) (line index : Nat), scanned tokens = kinds ∧
      Free key ∧ (∀ k ∈ key, k.place.line ≠ line) ∧ (c :: rest).length ≤ s.here.rest.length ∧
      s.step = (inBlock ⟨c :: rest, line, column, index⟩ columns tokens key true).token c rest := by
  cases settled with
  | @intro here deeper tokens key allowed line index free earlier inside skipped shorter =>
    refine ⟨List.replicate deeper.length ⟨.blockEnd, here.line + 1⟩ ++ tokens, key, line, index,
      scanned_replicate _ _, free, earlier, shorter, ?_⟩
    exact step_inBlock (checkKey_inBlock free) skipped inside outside notEdge

/-- What is known behind a mark: no key is pending, and `rest` is still to be read. -/
inductive Behind (columns : List Nat) (column : Nat) (rest : List Char) (allowed : Bool) :
    ScanState → List TokenKind → Prop
  | intro {tokens : List Token} {line index : Nat} :
    Behind columns column rest allowed
      (inBlock ⟨rest, line, column, index⟩ columns tokens none allowed) (scanned tokens)

theorem Behind.settled_newline {columns : List Nat} {column j : Nat} {body : List Char}
    {s : ScanState} {kinds : List TokenKind} (starts : StartsToken body)
    (behind : Behind columns column ('\n' :: (List.replicate j ' ' ++ body)) allowed s kinds) :
    Settled columns j body s kinds := by
  cases behind with
  | @intro tokens line index =>
    have settled := @Settled.intro columns j body
      ⟨'\n' :: (List.replicate j ' ' ++ body), line, column, index⟩ [] tokens none allowed _ _
      free_none (fun _ absent => nomatch absent) (fun _ absent => nomatch absent)
      (skipFrom_newline j line column index starts) (by simp; omega)
    simpa using settled

theorem Behind.settled_spaces {columns : List Nat} {column n : Nat} {body : List Char}
    {s : ScanState} {kinds : List TokenKind} (starts : StartsToken body)
    (behind : Behind columns column (List.replicate n ' ' ++ body) true s kinds) :
    Settled columns (column + n) body s kinds := by
  cases behind with
  | @intro tokens line index =>
    have settled := @Settled.intro columns (column + n) body
      ⟨List.replicate n ' ' ++ body, line, column, index⟩ [] tokens none true _ _
      free_none (fun _ absent => nomatch absent) (fun _ absent => nomatch absent)
      (skipFrom_spaces n line column index starts) (by simp)
    simpa using settled

end ScanState

end Yaml

end CodeSmell
