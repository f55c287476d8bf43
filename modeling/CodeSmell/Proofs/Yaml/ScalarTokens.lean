import CodeSmell.Proofs.Yaml.Scanning

/-!
# Scanning written scalars

Each form in which a text is written is scanned as a scalar with that text: as a key, up to the
colon behind it (`ScanState.token_key`), and on a line, up to the next token
(`ScanState.scansLine_scalarLine`).
-/

set_option autoImplicit false

namespace CodeSmell

namespace Yaml

namespace IsPlain

variable {c : Char} {cs : List Char}

/-- A question mark, a colon or a hyphen at the start of a plain text is no word by itself. -/
theorem endsWord_eq_false (plain : IsPlain (c :: cs)) (tail : List Char)
    (which : c = '?' ∨ c = ':' ∨ c = '-') : endsWord (cs ++ tail) = false := by
  have followed := plain.start.goesOn which
  have chars := plain.chars
  cases cs with
  | nil => cases followed
  | cons e cs =>
    have notBreak := (chars e (by simp)).2.1
    simp only [List.cons_append, endsWord, Bool.or_eq_false_iff]
    exact ⟨followed, notBreak⟩

theorem startsPlain (plain : IsPlain (c :: cs)) (tail : List Char) :
    startsPlain false (c :: (cs ++ tail)) = true := by
  obtain ⟨word, notBreak, notMark, -, -⟩ := plain.start
  have goesOn := plain.endsWord_eq_false tail
  rw [Yaml.startsPlain]
  split
  next hyphen =>
    have goesOn := goesOn (.inr (.inr hyphen))
    cases rest : cs ++ tail with
    | nil => rfl
    | cons e more =>
      rw [rest, endsWord, Bool.or_eq_false_iff] at goesOn
      simp [goesOn.1]
  next =>
    split
    next which =>
      rw [Bool.or_eq_true, decide_eq_true_eq, decide_eq_true_eq] at which
      simp [goesOn (which.imp_right Or.inl)]
    next =>
      -- the reader has the writer's marks in another order
      have same : (",[]\x7b\x7d#&*!|>'\"%@\x60".toList.all
          ("#,[]\x7b\x7d&*!|>'\"%@\x60".toList.contains ·)) = true := by decide
      have free : ",[]\x7b\x7d#&*!|>'\"%@\x60".toList.contains c = false := by
        rw [Bool.eq_false_iff]
        intro mem
        exact notMark (List.contains_iff_mem.1 (List.all_eq_true.1 same c
          (List.contains_iff_mem.1 mem)))
      rw [free, notBreak, word]
      rfl

end IsPlain

namespace ScanState

variable {here : Cursor} {columns : List Nat} {tokens : List Token} {key key' : Option PossibleKey}
  {allowed : Bool}

/-- A plain text is scanned as a plain scalar. -/
theorem token_plain {cs tail : List Char} (plain : IsPlain cs) {s : ScanState}
    (block : s.inFlow = false) {c : Char} {rest : List Char} (starts : cs ++ tail = c :: rest) :
    s.token c rest
      = s.plain.map fun (s, broken) => if broken then s else s.dropLineComment := by
  cases cs with
  | nil => exact absurd rfl plain.nonempty
  | cons d cs =>
    rw [List.cons_append] at starts
    obtain ⟨rfl, rfl⟩ := List.cons.inj starts
    have inText (e : Char) (which : e = '?' ∨ e = ':' ∨ e = '-') :
        (decide (d = e) && endsWord (cs ++ tail)) = false := by
      by_cases same : d = e
      · simp [plain.endsWord_eq_false tail (same ▸ which)]
      · simp [same]
    have notMark (e : Char) (mem : e ∈ "#,[]\x7b\x7d&*!|>'\"%@\x60".toList) : d ≠ e :=
      fun same => plain.start.notMark (same ▸ mem)
    have notBlock : (decide (d = '|') || decide (d = '>')) = false := by
      rw [decide_eq_false (notMark '|' (by decide)), decide_eq_false (notMark '>' (by decide))]
      rfl
    -- none of the marks that are tried before a plain scalar is met
    rw [token, if_neg (notMark '[' (by decide)), if_neg (notMark '\x7b' (by decide)),
      if_neg (notMark ']' (by decide)), if_neg (notMark '\x7d' (by decide)),
      if_neg (notMark ',' (by decide)), inText '-' (by decide), if_neg Bool.false_ne_true, block,
      Bool.false_or, inText '?' (by decide), if_neg Bool.false_ne_true, inText ':' (by decide),
      if_neg Bool.false_ne_true, if_neg (notMark '*' (by decide)), if_neg (notMark '&' (by decide)),
      if_neg (notMark '!' (by decide)), notBlock, Bool.false_and,
      if_neg Bool.false_ne_true, if_neg (notMark '\'' (by decide)),
      if_neg (notMark '"' (by decide)), if_pos (plain.startsPlain tail)]

theorem plain_inBlock {key' : Option PossibleKey} {text : String} {broken : Bool} {behind : Cursor}
    (saved : (inBlock here columns tokens key allowed).saveKey
      = .ok (inBlock here columns tokens key' allowed))
    (read : plainFrom false (inBlock here columns tokens key' allowed).inner here [] {} here.line
      here.column here.index here.rest = .ok (text, broken, behind)) :
    (inBlock here columns tokens key allowed).plain
      = .ok (inBlock behind columns (⟨.scalar text true, here.line + 1⟩ :: tokens) key' broken,
          broken) := by
  rw [plain, saved]
  simp only [bind, Except.bind, here_inBlock, inFlow_inBlock, read]
  rfl

theorem quoted_inBlock (read : Cursor → Except Problem (String × Cursor))
    {key' : Option PossibleKey} {text : String} {behind : Cursor}
    (saved : (inBlock here columns tokens key allowed).saveKey
      = .ok (inBlock here columns tokens key' allowed))
    (found : read here = .ok (text, behind)) :
    (inBlock here columns tokens key allowed).quoted read = .ok (inBlock behind columns
      (⟨.scalar text false, here.line + 1⟩ :: tokens) key' false) := by
  rw [quoted, word, saved]
  simp only [bind, Except.bind, here_inBlock, found]
  rfl

theorem block_inBlock {text : String} {behind : Cursor} (free : Free key)
    (found : readBlockScalar (inBlock here columns tokens key allowed).inner here
      = .ok (text, behind)) :
    (inBlock here columns tokens key allowed).block
      = .ok (inBlock behind columns (⟨.scalar text false, here.line + 1⟩ :: tokens) none true) := by
  rw [block, dropKey_inBlock free]
  simp only [bind, Except.bind, here_inBlock]
  erw [found]
  rfl

end ScanState

/-! ## Forms of a text -/

/-- Whether a text is written without quotes. -/
def isPlainText (s : String) : Bool := readsAsText s && allowsPlain s.toList

/-- A text that is kept: if it is written as a literal block, it does not start with an empty line
or a tab, nor in a list with a space. -/
def Kept (inList : Bool) (s : String) : Prop :=
  '\n' ∈ s.toList → allowsBlock s.toList = true →
    ∀ c ∈ s.toList.head?, isBreak c = false ∧ c ≠ '\t' ∧ (inList = true → c ≠ ' ')

theorem isPlain_of_isPlainText {s : String} (h : isPlainText s = true) : IsPlain s.toList := by
  obtain ⟨reads, plain⟩ := Bool.and_eq_true_iff.1 h
  refine ⟨?_, plain⟩
  intro none
  rw [String.toList_eq_nil_iff.1 none] at reads
  revert reads
  decide

/-- The ways in which a text without line feeds is written. -/
inductive FlatForm (indent : Nat) (s : String) : Prop
  | plain (reads : isPlainText s = true) (written : (flatText indent s).toList = s.toList)
  | single (quoted : isPlainText s = false) (single : IsSingle s.toList)
    (written : flatText indent s = singleQuoted indent s.toList)
  | double (quoted : isPlainText s = false) (written : flatText indent s = doubleQuoted s.toList)

theorem flatForm {s : String} (flat : '\n' ∉ s.toList) (indent : Nat) : FlatForm indent s := by
  by_cases reads : readsAsText s = true
  · by_cases plain : allowsPlain s.toList = true
    · exact .plain (by simp [isPlainText, reads, plain]) (by simp [flatText, reads, plain])
    · have quoted : isPlainText s = false := by simp [isPlainText, plain]
      by_cases single : allowsSingle s.toList = true
      · exact .single quoted ⟨single, flat⟩ (by simp [flatText, reads, plain, single])
      · exact .double quoted (by simp [flatText, reads, plain, single])
  · exact .double (by simp [isPlainText, reads]) (by simp [flatText, reads])

namespace ScanState

variable {here : Cursor} {columns : List Nat} {tokens : List Token} {key key' : Option PossibleKey}
  {allowed : Bool}

/-- A text in double quotes is scanned as a scalar. -/
theorem token_double {cs tail : List Char} (noComment : NoComment tail) {c : Char}
    {rest : List Char} (written : (doubleQuoted cs).toList ++ tail = c :: rest)
    {line column index : Nat}
    (saved : (inBlock ⟨c :: rest, line, column, index⟩ columns tokens key allowed).saveKey
      = .ok (inBlock ⟨c :: rest, line, column, index⟩ columns tokens key' allowed)) :
    (inBlock ⟨c :: rest, line, column, index⟩ columns tokens key allowed).token c rest
      = .ok (inBlock ⟨tail, line, column + (doubleQuoted cs).toList.length,
          index + (doubleQuoted cs).toList.length⟩ columns
          (⟨.scalar (String.ofList cs) false, line + 1⟩ :: tokens) key' false) := by
  have read := doubleFrom_doubleQuoted ⟨c :: rest, line, column, index⟩ cs tail line (column + 1)
    (index + 1) (Nat.succ_pos column)
  have first := toList_doubleQuoted cs
  obtain rfl : c = '"' := by
    rw [first, List.cons_append] at written
    exact (List.cons.inj written).1.symm
  rw [written, Nat.add_right_comm, Nat.add_right_comm index] at read
  have found := quoted_inBlock (fun c => doubleFrom c [] {} c.line (c.column + 1) (c.index + 1)
    .text (c.rest.drop 1)) saved read
  exact (congrArg (Except.map dropLineComment) found).trans
    (congrArg Except.ok (dropLineComment_inBlock noComment))

/-- A text in single quotes is scanned as a scalar. -/
theorem token_single {cs tail : List Char} (single : IsSingle cs) {indent : Nat}
    (indented : 0 < indent) (closing : tail.head? ≠ some '\'') (noComment : NoComment tail)
    {c : Char} {rest : List Char} (written : (singleQuoted indent cs).toList ++ tail = c :: rest)
    {line column index : Nat}
    (saved : (inBlock ⟨c :: rest, line, column, index⟩ columns tokens key allowed).saveKey
      = .ok (inBlock ⟨c :: rest, line, column, index⟩ columns tokens key' allowed)) :
    ∃ line' column', (inBlock ⟨c :: rest, line, column, index⟩ columns tokens key allowed).token c
        rest
      = .ok (inBlock ⟨tail, line', column', index + (singleQuoted indent cs).toList.length⟩ columns
          (⟨.scalar (String.ofList cs) false, line + 1⟩ :: tokens) key' false) ∧
      line ≤ line' ∧ ((∀ c ∈ cs, isBreak c = false) →
        line' = line ∧ column' = column + (singleQuoted indent cs).toList.length) := by
  obtain ⟨line', column', read, below, same⟩ := singleFrom_singleQuoted single indented
    ⟨c :: rest, line, column, index⟩ line (column + 1) (index + 1) closing (Nat.succ_pos column)
  obtain rfl : c = '\'' := by
    rw [singleQuoted, String.toList_append, String.toList_append] at written
    exact (List.cons.inj written).1.symm
  rw [written, Nat.add_right_comm index] at read
  have found := quoted_inBlock (fun c => singleFrom c [] {} c.line (c.column + 1) (c.index + 1)
    (c.rest.drop 1)) saved read
  refine ⟨line', column', ?_, below, fun flat => ?_⟩
  · exact (congrArg (Except.map dropLineComment) found).trans
      (congrArg Except.ok (dropLineComment_inBlock noComment))
  · obtain ⟨sameLine, sameColumn⟩ := same flat
    exact ⟨sameLine, by omega⟩

/-- A simple key is scanned up to its colon. -/
theorem token_key {name : String} (simple : isSimpleKey name = true) {indent : Nat} {c : Char}
    {behind rest : List Char} (word : endsWord behind = true)
    (written : (flatText indent name).toList ++ ':' :: behind = c :: rest) {line column index : Nat}
    (saved : (inBlock ⟨c :: rest, line, column, index⟩ columns tokens key allowed).saveKey
      = .ok (inBlock ⟨c :: rest, line, column, index⟩ columns tokens key' allowed)) :
    (inBlock ⟨c :: rest, line, column, index⟩ columns tokens key allowed).token c rest
      = .ok (inBlock ⟨':' :: behind, line, column + (flatText indent name).toList.length,
          index + (flatText indent name).toList.length⟩ columns
          (⟨.scalar name (isPlainText name), line + 1⟩ :: tokens) key' false) := by
  have oneLine := isBreak_of_isSimpleKey simple
  have flat := flat_of_isSimpleKey simple
  have noComment : NoComment (':' :: behind) := by simp [NoComment, isGap]
  cases flatForm flat indent with
  | plain reads form =>
    have plain := isPlain_of_isPlainText reads
    rw [form] at written ⊢
    have read : plainFrom false
        (inBlock ⟨c :: rest, line, column, index⟩ columns tokens key' allowed).inner
        ⟨c :: rest, line, column, index⟩ [] {} line column index (c :: rest)
        = .ok (name, false, ⟨':' :: behind, line, column + name.toList.length,
          index + name.toList.length⟩) := by
      rw [← written, plainFrom_text plain, plainFrom_colon _ _ _ word, List.reverse_reverse,
        String.ofList_toList]
    rw [token_plain plain inFlow_inBlock written, plain_inBlock saved read, reads]
    exact congrArg Except.ok (dropLineComment_inBlock noComment)
  | single quoted single form =>
    have closing : (':' :: behind).head? ≠ some '\'' := by simp
    have same : (singleQuoted indent name.toList).toList = (singleQuoted 1 name.toList).toList := by
      rw [toList_singleQuoted indent oneLine, toList_singleQuoted 1 oneLine]
    rw [form, same] at written ⊢
    obtain ⟨line', column', token, -, place⟩ := token_single single Nat.one_pos closing noComment
      written saved
    obtain ⟨rfl, rfl⟩ := place oneLine
    rw [token, quoted, String.ofList_toList]
  | double quoted form =>
    rw [form] at written ⊢
    rw [token_double noComment written saved, quoted, String.ofList_toList]

/-! ## Scalars on a line -/

/-- What is known at the end of a line on which a word was remembered. -/
theorem settled_lineEnd {k j : Nat} {body : List Char} (starts : StartsToken body) {place : Cursor}
    (inside : k < place.column) {scannedTokens : List Token} {line column index : Nat}
    (below : place.line ≤ line) :
    Settled (k :: columns) j body
      (inBlock ⟨'\n' :: (List.replicate j ' ' ++ body), line, column, index⟩ (k :: columns)
        scannedTokens (remembered place (k :: columns) tokens allowed) false)
      (scanned scannedTokens) := by
  have settled := @Settled.intro (k :: columns) j body
    ⟨'\n' :: (List.replicate j ' ' ++ body), line, column, index⟩ [] scannedTokens _ false
    (line + 1) _ (@free_remembered place columns tokens allowed k inside) (fun key mem => ?_)
    (fun _ absent => nomatch absent) (skipFrom_newline j line column index starts) (by simp; omega)
  · simpa using settled
  · rw [line_remembered key mem]
    exact Nat.ne_of_lt (Nat.lt_succ_of_le below)

/-- A token is scanned up to the next one, which stands on a later line. -/
def ScansLine (s : ScanState) (c : Char) (rest : List Char) (columns : List Nat) (j : Nat)
    (body : List Char) (kinds : List TokenKind) : Prop :=
  ∃ t, s.token c rest = .ok t ∧ t.here.rest.length < (c :: rest).length ∧
    Settled columns j body t kinds

/-- A plain scalar ends with its line. -/
theorem scansLine_plain {cs : List Char} (plain : IsPlain cs) {k j : Nat} {body : List Char}
    (starts : StartsToken body) (outside : j ≤ k) {c : Char} {rest : List Char}
    (written : cs ++ '\n' :: (List.replicate j ' ' ++ body) = c :: rest) {line column index : Nat}
    (inside : k < column) :
    ScansLine (inBlock ⟨c :: rest, line, column, index⟩ (k :: columns) tokens none allowed) c rest
      (k :: columns) j body (scanned tokens ++ [.scalar (String.ofList cs) true]) := by
  have read : plainFrom false (inBlock ⟨c :: rest, line, column, index⟩ (k :: columns) tokens
      (remembered ⟨c :: rest, line, column, index⟩ (k :: columns) tokens allowed) allowed).inner
      ⟨c :: rest, line, column, index⟩ [] {} line column index (c :: rest)
      = .ok (String.ofList cs, true, ⟨body, line + 1, j, index + cs.length + 1 + j⟩) := by
    rw [inner_inBlock, ← written, plainFrom_text plain, plainFrom_newline starts _ _ _
      (.inr (Nat.lt_succ_of_le outside)), List.reverse_reverse]
  rw [ScansLine, token_plain plain inFlow_inBlock written, plain_inBlock saveKey_none read]
  refine ⟨_, rfl, ?_, ?_⟩
  · rw [← written]
    simp
    omega
  · have settled := @Settled.intro (k :: columns) j body
      ⟨body, line + 1, j, index + cs.length + 1 + j⟩ []
      (⟨.scalar (String.ofList cs) true, line + 1⟩ :: tokens) _ true (line + 1) _
      (@free_remembered ⟨c :: rest, line, column, index⟩ columns tokens allowed k inside)
      (fun key mem => ?_) (fun _ absent => nomatch absent)
      (skipFrom_spaces 0 (line + 1) j (index + cs.length + 1 + j) starts) (Nat.le_refl _)
    · simpa [scanned] using settled
    · rw [line_remembered key mem]
      exact Nat.ne_of_lt (Nat.lt_succ_self line)

theorem isPlainText_of_newline {s : String} (broken : '\n' ∈ s.toList) : isPlainText s = false := by
  by_contra plain
  rw [Bool.not_eq_false] at plain
  have word := ((isPlain_of_isPlainText plain).chars '\n' broken).2.1
  cases word

theorem toList_scalarLine_flat {s : String} (flat : '\n' ∉ s.toList) (indent : Nat) :
    (scalarLine indent s).toList = (flatText indent s).toList ++ ['\n'] := by
  simp [scalarLine, flat]

theorem toList_scalarLine_double {s : String} (broken : '\n' ∈ s.toList)
    (quoted : allowsBlock s.toList = false) (indent : Nat) :
    (scalarLine indent s).toList = (doubleQuoted s.toList).toList ++ ['\n'] := by
  simp [scalarLine, broken, quoted]

theorem toList_scalarLine_block {s : String} (broken : '\n' ∈ s.toList)
    (block : allowsBlock s.toList = true) (indent : Nat) :
    (scalarLine indent s).toList = '|' :: ((literalMarks s.toList).toList ++
      ((literalLines indent true true s.toList).toList ++
        (if s.toList.getLast?.any isBreak then [] else ['\n']))) := by
  cases last : s.toList.getLast?.any isBreak <;> simp [scalarLine, broken, block, last]

/-- A text in double quotes ends before the line break behind it. -/
theorem scansLine_double {s : String} (quoted : isPlainText s = false) {k j : Nat}
    {body : List Char} (starts : StartsToken body) {c : Char} {rest : List Char}
    (written : (doubleQuoted s.toList).toList ++ '\n' :: (List.replicate j ' ' ++ body) = c :: rest)
    {line column index : Nat} (inside : k < column) :
    ScansLine (inBlock ⟨c :: rest, line, column, index⟩ (k :: columns) tokens none allowed) c rest
      (k :: columns) j body (scanned tokens ++ [.scalar s (isPlainText s)]) := by
  have noComment : NoComment ('\n' :: (List.replicate j ' ' ++ body)) := by simp [NoComment, isGap]
  rw [ScansLine, token_double noComment written saveKey_none, String.ofList_toList, quoted]
  refine ⟨_, rfl, ?_, ?_⟩
  · rw [← written, List.length_append, toList_doubleQuoted]
    simp
  · rw [← scanned_cons ⟨.scalar s false, line + 1⟩]
    exact settled_lineEnd starts inside (Nat.le_refl line)

/-- A text in single quotes ends before the line break behind it. -/
theorem scansLine_single {s : String} (quoted : isPlainText s = false) (single : IsSingle s.toList)
    {indent k j : Nat} (indented : 0 < indent) {body : List Char} (starts : StartsToken body)
    {c : Char} {rest : List Char}
    (written : (singleQuoted indent s.toList).toList ++ '\n' :: (List.replicate j ' ' ++ body)
      = c :: rest) {line column index : Nat} (inside : k < column) :
    ScansLine (inBlock ⟨c :: rest, line, column, index⟩ (k :: columns) tokens none allowed) c rest
      (k :: columns) j body (scanned tokens ++ [.scalar s (isPlainText s)]) := by
  have closing : ('\n' :: (List.replicate j ' ' ++ body)).head? ≠ some '\'' := by simp
  have noComment : NoComment ('\n' :: (List.replicate j ' ' ++ body)) := by simp [NoComment, isGap]
  obtain ⟨line', column', token, below, -⟩ := token_single single indented closing noComment written
    (@saveKey_none ⟨c :: rest, line, column, index⟩ (k :: columns) tokens allowed)
  rw [ScansLine, token, String.ofList_toList, quoted]
  refine ⟨_, rfl, ?_, ?_⟩
  · rw [← written, List.length_append, singleQuoted, String.toList_append, String.toList_append]
    simp
  · rw [← scanned_cons ⟨.scalar s false, line + 1⟩]
    exact settled_lineEnd starts inside below

/-- A literal block ends before the first line that is not indented as its lines are. -/
theorem scansLine_block {s : String} (broken : '\n' ∈ s.toList)
    (block : allowsBlock s.toList = true) {inList : Bool} (kept : Kept inList s) {k indent : Nat}
    (deep : k < indent) (mark : inList = false → indent = k + 4) {j : Nat} {body : List Char}
    (starts : StartsToken body) (outside : j ≤ k) {c : Char} {rest : List Char}
    (written : (scalarLine indent s).toList ++ (List.replicate j ' ' ++ body) = c :: rest)
    {line column index : Nat} :
    ScansLine (inBlock ⟨c :: rest, line, column, index⟩ (k :: columns) tokens none allowed) c rest
      (k :: columns) j body (scanned tokens ++ [.scalar s (isPlainText s)]) := by
  have first := kept broken block
  have literal : IsLiteral s.toList :=
    ⟨block, fun c mem => ⟨(first c mem).1, (first c mem).2.1⟩⟩
  -- the mark that a text with a blank in front needs gives the indentation inside a mapping only
  have space : s.toList.head? = some ' ' → indent = k + 1 - 1 + 4 := by
    intro head
    refine mark ?_
    cases inList with
    | false => rfl
    | true => exact absurd rfl ((first ' ' head).2.2 rfl)
  rw [toList_scalarLine_block broken block, List.cons_append, List.append_assoc,
    List.append_assoc] at written
  obtain ⟨line', index', read⟩ := readBlockScalar_literal (k + 1) indent literal
    ⟨deep, Nat.zero_lt_of_lt deep⟩ space (Nat.lt_of_le_of_lt outside deep) starts line column
    index
  rw [written, String.ofList_toList] at read
  obtain rfl : c = '|' := (List.cons.inj written).1.symm
  refine ⟨inBlock ⟨body, line', j, index'⟩ (k :: columns)
    (⟨.scalar s false, line + 1⟩ :: tokens) none true, block_inBlock free_none read, ?_, ?_⟩
  · rw [← written]
    simp
    omega
  · rw [isPlainText_of_newline broken, ← scanned_cons ⟨.scalar s false, line + 1⟩]
    exact Behind.settled_spaces starts (n := 0) .intro

/-- A text with the line break behind it is scanned as a scalar. -/
theorem scansLine_scalarLine {s : String} {inList : Bool} (kept : Kept inList s) {k indent : Nat}
    (deep : k < indent) (mark : inList = false → indent = k + 4) {j : Nat} {body : List Char}
    (starts : StartsToken body) (outside : j ≤ k) {c : Char} {rest : List Char}
    (written : (scalarLine indent s).toList ++ (List.replicate j ' ' ++ body) = c :: rest)
    {line column index : Nat} (inside : k < column) :
    ScansLine (inBlock ⟨c :: rest, line, column, index⟩ (k :: columns) tokens none allowed) c rest
      (k :: columns) j body (scanned tokens ++ [.scalar s (isPlainText s)]) := by
  by_cases broken : '\n' ∈ s.toList
  · by_cases block : allowsBlock s.toList = true
    · exact scansLine_block broken block kept deep mark starts outside written
    · rw [toList_scalarLine_double broken (Bool.eq_false_iff.2 block), List.append_assoc] at written
      exact scansLine_double (isPlainText_of_newline broken) starts written inside
  · rw [toList_scalarLine_flat broken, List.append_assoc] at written
    cases flatForm broken indent with
    | plain reads form =>
      rw [form] at written
      have scan := @scansLine_plain columns tokens allowed s.toList (isPlain_of_isPlainText reads) k
        j body starts outside c rest written line column index inside
      rwa [String.ofList_toList, ← reads] at scan
    | single quoted single form =>
      rw [form] at written
      exact scansLine_single quoted single (Nat.zero_lt_of_lt deep) starts written inside
    | double quoted form =>
      rw [form] at written
      exact scansLine_double quoted starts written inside

end ScanState

end Yaml

end CodeSmell
