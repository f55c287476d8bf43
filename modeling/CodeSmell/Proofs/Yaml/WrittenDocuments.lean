import CodeSmell.Proofs.Yaml.WrittenTokens
import Mathlib.Data.List.TakeWhile

/-!
# Written documents

A written document consists of characters that may stand in a text (`clean_fields`): all others
are escaped. So it is scanned as a whole, and its tokens are those of its entries
(`scan_writeFields`).
-/

set_option autoImplicit false

namespace CodeSmell

namespace Yaml

/-! ## Characters -/

/-- Only characters that are written as they are: printable ones and tabs. -/
def Clean (cs : List Char) : Prop := ∀ c ∈ cs, isPrintable c = true ∨ c = '\t'

namespace Clean

variable {cs ds : List Char}

theorem nil : Clean [] := fun _ absent => nomatch absent

theorem cons {c : Char} (printable : isPrintable c = true) (h : Clean cs) : Clean (c :: cs) :=
  List.forall_mem_cons.2 ⟨.inl printable, h⟩

theorem append (h : Clean cs) (h' : Clean ds) : Clean (cs ++ ds) :=
  List.forall_mem_append.2 ⟨h, h'⟩

theorem replicate (n : Nat) : Clean (List.replicate n ' ') := fun c mem => by
  rw [List.eq_of_mem_replicate mem]
  exact .inl rfl

theorem flatMap {α : Type} {f : α → List Char} {l : List α} (h : ∀ a ∈ l, Clean (f a)) :
    Clean (l.flatMap f) := by
  intro c mem
  obtain ⟨a, inList, inText⟩ := List.mem_flatMap.1 mem
  exact h a inList c inText

end Clean

theorem isPrintable_of_hexDigit? {c : Char} {d : Nat} (h : hexDigit? c = some d) :
    isPrintable c = true := by
  have range : 0x20 ≤ c.toNat ∧ c.toNat ≤ 0x7E := by
    simp only [hexDigit?, Char.le_def, UInt32.le_iff_toNat_le] at h
    split at h
    · rename_i digit
      exact ⟨Nat.le_trans (by decide) digit.1, Nat.le_trans digit.2 (by decide)⟩
    · split at h
      · rename_i digit
        exact ⟨Nat.le_trans (by decide) digit.1, Nat.le_trans digit.2 (by decide)⟩
      · split at h
        · rename_i digit
          exact ⟨Nat.le_trans (by decide) digit.1, Nat.le_trans digit.2 (by decide)⟩
        · cases h
  simp [isPrintable, range]

theorem clean_digits {n m : Nat} {ds : List Char} (h : hexFrom? n ds = some m) : Clean ds := by
  induction ds generalizing n with
  | nil => exact .nil
  | cons d ds ih =>
    obtain ⟨next, first, later⟩ := Option.bind_eq_some_iff.1 h
    obtain ⟨digit, read, -⟩ := Option.map_eq_some_iff.1 first
    exact .cons (isPrintable_of_hexDigit? read) (ih later)

theorem EscapeOf.clean {c : Char} {w : List Char} (h : EscapeOf c w) : Clean w := by
  cases h with
  | @letter l value notBreak =>
    obtain ⟨before, behind, table, -⟩ := List.lookup_eq_some_iff.1 value
    have all : ∀ p ∈ [('0', '\x00'), ('a', '\x07'), ('b', '\x08'), ('t', '\t'), ('\t', '\t'),
        ('n', '\n'), ('v', '\x0b'), ('f', '\x0c'), ('r', '\r'), ('e', '\x1b'), (' ', ' '),
        ('"', '"'), ('\'', '\''), ('\\', '\\'), ('N', '\u0085'), ('_', '\u00a0'),
        ('L', '\u2028'), ('P', '\u2029')], isPrintable p.1 = true ∨ p.1 = '\t' := by decide
    exact .cons rfl (List.forall_mem_singleton.2 (all (l, c) (by rw [table]; simp)))
  | @digits l ds noValue width notBreak nonempty number =>
    obtain ⟨before, behind, table, -⟩ := List.lookup_eq_some_iff.1 width
    have all : ∀ p ∈ [('x', 2), ('u', 4), ('U', 8)], isPrintable p.1 = true := by decide
    exact .cons rfl (.cons (all (l, ds.length) (by rw [table]; simp)) (clean_digits number))

theorem clean_doubleQuoted (cs : List Char) : Clean (doubleQuoted cs).toList := by
  rw [toList_doubleQuoted]
  refine .cons rfl (.append (.flatMap fun c _ => ?_) (.cons rfl .nil))
  rw [spelledDouble]
  split
  · rename_i verbatim
    simp only [isVerbatim, Bool.and_eq_true] at verbatim
    rw [toList_toString_char]
    exact .cons verbatim.1.1.1.1 .nil
  · exact (escapeOf_escape c).1.clean

theorem clean_singleChars {cs : List Char} (indent : Nat) (atStart : Bool) (h : Clean cs) :
    Clean (singleChars indent atStart cs).toList := by
  induction cs generalizing atStart with
  | nil => simpa [singleChars] using Clean.nil
  | cons c cs ih =>
    obtain ⟨first, later⟩ := List.forall_mem_cons.1 h
    have single : Clean [c] := List.forall_mem_singleton.2 first
    rw [singleChars]
    split
    · rw [String.toList_append, toList_toString_char]
      exact single.append (ih true later)
    · simp only [String.toList_append]
      refine .append (.append ?_ ?_) (ih false later)
      · cases atStart with
        | true => simpa [toList_spaces] using Clean.replicate indent
        | false => simpa using Clean.nil
      · split
        · exact .cons rfl (.cons rfl .nil)
        · rwa [toList_toString_char]

theorem clean_literalLines {cs : List Char} (indent : Nat) (atStart opened : Bool) (h : Clean cs) :
    Clean (literalLines indent atStart opened cs).toList := by
  induction cs generalizing atStart opened with
  | nil => simpa [literalLines] using Clean.nil
  | cons c cs ih =>
    obtain ⟨first, later⟩ := List.forall_mem_cons.1 h
    have single : Clean [c] := List.forall_mem_singleton.2 first
    rw [literalLines]
    split
    · rw [String.toList_append, toList_toString_char]
      exact single.append (ih true false later)
    · split
      · simp only [String.toList_append, toList_spaces, toList_toString_char]
        refine .append (.append (.append ?_ (.replicate indent)) single) (ih false false later)
        cases opened with
        | true => exact .cons rfl .nil
        | false => exact .nil
      · rw [String.toList_append, toList_toString_char]
        exact single.append (ih false false later)

theorem clean_literalMarks (cs : List Char) : Clean (literalMarks cs).toList := by
  rw [literalMarks, String.toList_append]
  refine .append ?_ ?_
  · split
    · exact .cons rfl .nil
    · exact .nil
  · split
    · exact .cons rfl .nil
    · split
      · exact .cons rfl .nil
      · split
        · exact .cons rfl .nil
        · split
          · exact .cons rfl .nil
          · exact .nil

/-- A text without line feeds is written with characters that may stand in a text. -/
theorem clean_flatText {s : String} (flat : '\n' ∉ s.toList) (indent : Nat) :
    Clean (flatText indent s).toList := by
  cases flatForm flat indent with
  | plain reads form =>
    rw [form]
    exact fun c mem => .inl ((isPlain_of_isPlainText reads).chars c mem).1
  | single quoted single form =>
    rw [form, singleQuoted, String.toList_append, String.toList_append]
    refine .append (.append (.cons rfl .nil) ?_) (.cons rfl .nil)
    exact clean_singleChars indent false fun c mem => .inl (single.chars c mem).1
  | double quoted form =>
    rw [form]
    exact clean_doubleQuoted s.toList

theorem clean_scalarLine (indent : Nat) (s : String) : Clean (scalarLine indent s).toList := by
  by_cases broken : '\n' ∈ s.toList
  · by_cases block : allowsBlock s.toList = true
    · have clean : Clean s.toList := by
        intro c mem
        simp only [allowsBlock, hasSpecial, Bool.and_eq_true, Bool.not_eq_true',
          List.any_eq_false] at block
        have special := block.2 c mem
        by_cases tab : c = '\t'
        · exact .inr tab
        · exact .inl (by simpa [tab] using special)
      rw [ScanState.toList_scalarLine_block broken block]
      refine .cons rfl (.append (clean_literalMarks _) ?_)
      refine .append (clean_literalLines _ _ _ clean) ?_
      split
      · exact .nil
      · exact .cons rfl .nil
    · rw [ScanState.toList_scalarLine_double broken (Bool.eq_false_iff.2 block)]
      exact .append (clean_doubleQuoted _) (.cons rfl .nil)
  · rw [ScanState.toList_scalarLine_flat broken]
    exact .append (clean_flatText broken indent) (.cons rfl .nil)

theorem clean_entryGap (k : Nat) (alone : Bool) : Clean (ScanState.entryGap k alone) := by
  cases alone with
  | true => exact .replicate 3
  | false => exact .cons rfl (.replicate (k + 4))

theorem clean_writeField {k : Nat} {name : Text} {v : Value} (kept : KeptName name)
    (h : ∀ k alone, Clean (v.write k alone).toList) : Clean (writeField k (name, v)).toList := by
  obtain ⟨name, rfl, -, -⟩ := kept
  cases simple : isSimpleKey name with
  | true =>
    have flat := flat_of_isSimpleKey simple
    rw [ScanState.toList_writeField_simple simple]
    exact .append (clean_flatText flat k) (.cons rfl (h k false))
  | false =>
    rw [ScanState.toList_writeField_marked simple]
    exact .cons rfl (.cons rfl (.append (clean_scalarLine _ _)
      (.append (.replicate k) (.cons rfl (h k true)))))

theorem clean_fields {k : Nat} (fields : List (Text × Value))
    (names : ∀ f ∈ fields, KeptName f.1)
    (h : ∀ f ∈ fields, ∀ k alone, Clean (f.2.write k alone).toList) :
    Clean (writeFields k fields).toList := by
  induction fields with
  | nil => simpa [writeFields] using Clean.nil
  | cons f fields ih =>
    obtain ⟨first, later⟩ := List.forall_mem_cons.1 h
    obtain ⟨name, names⟩ := List.forall_mem_cons.1 names
    rw [writeFields, String.toList_append, String.toList_append, toList_spaces]
    exact .append (.append (.replicate k) (clean_writeField name first)) (ih names later)

/-- A value that is kept is written with characters that may stand in a text. -/
theorem clean_write {n : Nat} {v : Value} (keeps : v.Keeps n) (k : Nat) (alone : Bool) :
    Clean (v.write k alone).toList := by
  have word {text : String} (plain : IsPlain text.toList) :
      Clean (' ' :: (text.toList ++ ['\n'])) :=
    .cons rfl (.append (fun c mem => .inl (plain.chars c mem).1) (.cons rfl .nil))
  have line (indent : Nat) {inList : Bool} {t : Text} (kept : KeptText inList t) :
      Clean (textLine indent t).toList := by
    obtain ⟨s, rfl, -⟩ := kept
    rw [textLine_ofString]
    exact clean_scalarLine indent s
  induction keeps generalizing k alone with
  | @int n m fits =>
    rw [ScanState.toList_write_int]
    exact word (isPlain_toString m)
  | bool b =>
    rw [ScanState.toList_write_bool]
    exact word (isPlain_boolWord b)
  | text kept =>
    obtain ⟨s, rfl, -⟩ := kept
    rw [ScanState.toList_write_text]
    exact .cons rfl (clean_scalarLine _ _)
  | @list n items kept =>
    cases items with
    | nil =>
      rw [ScanState.toList_write_noItems]
      exact .cons rfl (.cons rfl (.cons rfl (.cons rfl .nil)))
    | cons item items =>
      rw [ScanState.toList_write_items]
      obtain ⟨first, later⟩ := List.forall_mem_cons.1 kept
      refine .append (clean_entryGap k alone) (.cons rfl (.cons rfl (.append (line _ first)
        (.flatMap fun t mem => ?_))))
      exact .append (.replicate _) (.cons rfl (.cons rfl (line _ (later t mem))))
  | @table n fields distinct names values ih =>
    cases fields with
    | nil =>
      rw [ScanState.toList_write_noFields]
      exact .cons rfl (.cons rfl (.cons rfl (.cons rfl .nil)))
    | cons field fields =>
      rw [ScanState.toList_write_fields]
      obtain ⟨name, names⟩ := List.forall_mem_cons.1 names
      refine .append (clean_entryGap k alone) (.append ?_ ?_)
      · exact clean_writeField name (ih field List.mem_cons_self)
      · exact clean_fields fields names fun f mem => ih f (List.mem_cons_of_mem field mem)

/-! ## Scanning -/

theorem isAllowed_of_clean {cs : List Char} (h : Clean cs) :
    ∀ c ∈ cs, isAllowed c = true ∧ c ≠ '\r' ∧ c ≠ byteOrderMark := by
  intro c mem
  have range := Text.toNat_range c
  rcases h c mem with printable | rfl
  · refine ⟨?_, ?_, ?_⟩
    · simp only [isPrintable, Bool.or_eq_true, Bool.and_eq_true, decide_eq_true_eq] at printable
      simp only [isAllowed, Bool.or_eq_true, Bool.and_eq_true, decide_eq_true_eq]
      rcases printable with (newline | ascii) | wide
      · exact .inl (.inl (.inl (.inl (.inl (.inl (.inr (Char.toNat_inj.1 newline)))))))
      · exact .inl (.inl (.inl (.inl (.inr ascii))))
      · rcases range with low | high
        · exact .inl (.inl (.inr ⟨wide.1.1, by omega⟩))
        · exact .inl (.inr ⟨high.1, wide.1.2⟩)
    · rintro rfl
      cases printable
    · rintro rfl
      cases printable
  · decide

theorem unifyBreaks_eq {cs : List Char} (h : ∀ c ∈ cs, c ≠ '\r') : unifyBreaks cs = cs := by
  induction cs with
  | nil => rw [unifyBreaks]
  | cons c cs ih =>
    obtain ⟨first, later⟩ := List.forall_mem_cons.1 h
    rw [unifyBreaks]
    · rw [if_neg first, ih later]
    · intro rest same
      exact absurd same first

namespace ScanState

/-- The end of a text closes all collections. -/
theorem finish_inBlock {columns : List Nat} {tokens : List Token} {key : Option PossibleKey}
    {line index : Nat} (free : Free key) :
    (inBlock ⟨[], line, 0, index⟩ columns tokens key true).finish
      = .ok { inBlock ⟨[], line, 0, index⟩ [] (⟨.textEnd, line + 1⟩ ::
          (List.replicate columns.length ⟨.blockEnd, line + 1⟩ ++ tokens)) none false with
          ended := true } := by
  have closed : (inBlock ⟨[], line, 0, index⟩ columns tokens key true).closeAll ⟨[], line, 0, index⟩
      = inBlock ⟨[], line, 0, index⟩ [] (List.replicate columns.length ⟨.blockEnd, line + 1⟩ ++
        tokens) key true := by
    rw [closeAll, inFlow_inBlock, if_neg Bool.false_ne_true, columns_inBlock, close_inBlock,
      List.drop_length]
  have dropped := @dropKey_inBlock ⟨[], line, 0, index⟩ []
    (List.replicate columns.length ⟨.blockEnd, line + 1⟩ ++ tokens) key true free
  rw [finish]
  simp only [bind, Except.bind]
  erw [closed, dropped]
  rfl

/-- The step at the end of a text. -/
theorem Settled.step_end {columns : List Nat} {s : ScanState} {kinds : List TokenKind}
    (settled : Settled columns 0 [] s kinds) (outside : ∀ k ∈ columns.head?, k ≤ 0) :
    ∃ e, s.step = .ok e ∧ e.ended = true ∧
      scanned e.tokens = kinds ++ List.replicate columns.length .blockEnd ++ [.textEnd] := by
  cases settled with
  | @intro here deeper tokens key allowed line index free earlier inside skipped shorter =>
    have closed := @closeDeeper_inBlock ⟨[], line, 0, index⟩ tokens key true here deeper columns
      inside outside
    have step : (inBlock here (deeper ++ columns) tokens key allowed).step
        = ((inBlock ⟨[], line, 0, index⟩ (deeper ++ columns) tokens key true).closeDeeper
          here).finish :=
      step_finish (checkKey_inBlock free) skipped (ite_self none)
    rw [step, closed, finish_inBlock free]
    refine ⟨_, rfl, rfl, ?_⟩
    have kinds := @scanned_cons (List.replicate columns.length ⟨.blockEnd, line + 1⟩ ++
      (List.replicate deeper.length ⟨.blockEnd, here.line + 1⟩ ++ tokens)) ⟨.textEnd, line + 1⟩
    rw [scanned_replicate, scanned_replicate] at kinds
    exact kinds

end ScanState

/-- A text of characters that are written as they are is scanned as a whole. -/
theorem scan_of_clean {text : List Char} (clean : Clean text) :
    Token.scan text
      = (ScanState.inBlock ⟨text, 0, 0, 0⟩ [] [] none true).run (text.length + 1) := by
  have chars := isAllowed_of_clean clean
  have noMark : text.head? ≠ some byteOrderMark := by
    intro same
    exact (chars byteOrderMark (List.mem_of_mem_head? same)).2.2 rfl
  have body : dropByteOrderMark text = text := by rw [dropByteOrderMark, if_neg noMark]
  have readable (before : Nat) : readablePart before text = text := by
    have all : text.takeWhile isAllowed = text :=
      List.takeWhile_eq_self_iff.2 fun c mem => (chars c mem).1
    rw [readablePart, all, if_pos rfl]
  have unified : unifyBreaks text = text := unifyBreaks_eq fun c mem => (chars c mem).2.1
  rw [Token.scan, body]
  simp only [readable, if_true, Option.isSome_none, Bool.and_false, Bool.false_eq_true, if_false,
    unified, noMark]
  rfl

/-- The tokens of a written document are those of its entries. -/
theorem scan_writeFields {n : Nat} {field : Text × Value} {fields : List (Text × Value)}
    (keeps : (Value.table (field :: fields)).Keeps (n + 1)) (room : n + 1 ≤ ScanState.mostOpen) :
    ∃ tokens, Token.scan (writeFields 0 (field :: fields)).toList = ⟨tokens, none⟩ ∧
      tokens.map Token.kind = (Value.table (field :: fields)).tokens ++ [.textEnd] := by
  cases keeps with
  | table distinct names values =>
    have clean : Clean (writeFields 0 (field :: fields)).toList :=
      clean_fields (field :: fields) names fun f mem => clean_write (values f mem)
    have written : (writeFields 0 (field :: fields)).toList
        = (writeField 0 field).toList ++ ((writeFields 0 fields).toList ++
          (List.replicate 0 ' ' ++ [])) := by
      simp [writeFields, toList_spaces]
    obtain ⟨c, rest, first, starts⟩ := ScanState.startsToken_writeField 0
      (names field List.mem_cons_self)
      ((writeFields 0 fields).toList ++ (List.replicate 0 ' ' ++ []))
    have settled := @ScanState.Behind.settled_spaces [] 0 0 _ _ _ starts
      (@ScanState.Behind.intro [] 0 (c :: rest) true [] 0 0)
    rw [← first] at settled
    obtain ⟨t, leads, settled'⟩ := ScanState.leads_fields fields field names
      (fun f mem => ⟨values f mem, ScanState.leads_value (values f mem)⟩) settled
      (.first (by rintro _ ⟨⟩) (by decide)) (by simp; omega) (by rintro _ ⟨⟩) (Nat.le_refl 0)
    obtain ⟨e, final, ended, kinds⟩ := settled'.step_end fun k mem =>
      Nat.le_of_eq (Option.some.inj mem).symm
    rw [← written] at leads
    refine ⟨e.tokens.reverse, ?_, ?_⟩
    · rw [scan_of_clean clean]
      exact ScanState.run_of_leads leads final ended _ (Nat.lt_succ_self _)
    · rw [List.map_reverse]
      simpa [ScanState.scanned, Value.tokens] using kinds

end Yaml

end CodeSmell
