import CodeSmell.Proofs.Signatures

/-!
# The words and marks of signatures

The text of an expression is a sequence of words, method names, operators and marks
(`Signature.Token`). Each shows by its first character what it is and ends where the next begins, so
a text has only one such sequence (`Signature.spell_injective`).

`Tree.tokens` gives the sequence of an expression. The expressions here are variables, constants,
numbers and calls with a receiver, among them calls by a sign and calls of writers
(`Tree.IsExpression`). Their texts are spelled by their tokens (`Tree.IsExpression.writes`), and two
of them have the same text exactly if they have the same tokens (`Tree.render_eq_iff_tokens_eq`).
-/

set_option autoImplicit false

namespace CodeSmell

namespace Signature

/-! ## Tokens -/

/-- A part of the text of an expression. -/
inductive Token where
  /-- A variable, a constant or a number. -/
  | word (chars : List Char)
  /-- A method behind a point. -/
  | method (chars : List Char)
  /-- An operator, or the sign of assignment, between blanks. -/
  | operator (chars : List Char)
  /-- A parenthesis, a bracket, or the sign of an operation in front of its operand. -/
  | mark (c : Char)
  | comma
deriving DecidableEq

/-- The signs that stand in front of an operand. -/
def signs : List Char := ['-', '+', '~']

/-- A character that a word can start with. -/
def isWordStart (c : Char) : Bool := isNameChar c || c == '@'

namespace Token

/-- The characters of a token. -/
def spelled : Token → List Char
  | .word chars => chars
  | .method chars => '.' :: chars
  | .operator chars => ' ' :: (chars ++ [' '])
  | .mark c => [c]
  | .comma => [',', ' ']

/-- A token is made of the characters of its kind. -/
def Proper : Token → Prop
  | .word chars => ∃ c rest, chars = c :: rest ∧ isWordStart c ∧ ∀ d ∈ rest, isNameChar d
  | .method chars => ∀ c ∈ chars, isMethodChar c
  | .operator chars => ' ' ∉ chars
  | .mark c => c ∈ signs ++ ['(', ')', '[', ']']
  | .comma => True

/-- Whether a word behind the token would be read as part of it. -/
def isOpen : Token → Bool
  | .word _ | .method _ => true
  | .operator _ | .mark _ | .comma => false

/-- Whether the token is a word. -/
def isWord : Token → Bool
  | .word _ => true
  | .method _ | .operator _ | .mark _ | .comma => false

/-- The kind of a token as a number. -/
def kind : Token → Nat
  | .word _ => 0
  | .method _ => 1
  | .operator _ => 2
  | .mark _ => 3
  | .comma => 4

/-- The kind of the token that a character starts. -/
def kindOf (c : Char) : Nat :=
  if isWordStart c then 0
  else if c = '.' then 1
  else if c = ' ' then 2
  else if c = ',' then 4
  else 3

/-- The first character of a token shows its kind. -/
theorem exists_first {t : Token} (proper : t.Proper) :
    ∃ c rest, t.spelled = c :: rest ∧ kindOf c = t.kind := by
  cases t with
  | word chars =>
    obtain ⟨c, rest, rfl, start, -⟩ := proper
    exact ⟨c, rest, rfl, if_pos start⟩
  | method chars => exact ⟨'.', chars, rfl, rfl⟩
  | operator chars => exact ⟨' ', chars ++ [' '], rfl, rfl⟩
  | mark c =>
    have others : (signs ++ ['(', ')', '[', ']']).all (fun c => kindOf c = 3) := by decide
    exact ⟨c, [], rfl, of_decide_eq_true (List.all_eq_true.1 others c proper)⟩
  | comma => exact ⟨',', [' '], rfl, rfl⟩

end Token

/-! ## Texts and their tokens -/

/-- The characters of several tokens. -/
def spell (ts : List Token) : List Char := ts.flatMap Token.spelled

theorem spell_append (ts us : List Token) : spell (ts ++ us) = spell ts ++ spell us :=
  List.flatMap_append

theorem spell_cons (t : Token) (ts : List Token) : spell (t :: ts) = t.spelled ++ spell ts :=
  List.flatMap_cons

/-- Proper tokens, none of which goes on in the next. -/
def Separate : List Token → Prop
  | [] => True
  | t :: ts => t.Proper ∧ (t.isOpen → ∀ u ∈ ts.head?, u.isWord = false) ∧ Separate ts

theorem separate_cons {t : Token} {ts : List Token} (proper : t.Proper) (closed : t.isOpen = false)
    (h : Separate ts) : Separate (t :: ts) := by
  refine ⟨proper, fun isOpen => ?_, h⟩
  rw [closed] at isOpen
  cases isOpen

theorem separate_mark {c : Char} (known : c ∈ signs ++ ['(', ')', '[', ']']) {ts : List Token}
    (h : Separate ts) : Separate (.mark c :: ts) :=
  separate_cons known rfl h

theorem separate_operator {op : List Char} (oneWord : ' ' ∉ op) {ts : List Token}
    (h : Separate ts) : Separate (.operator op :: ts) :=
  separate_cons oneWord rfl h

theorem separate_singleton {t : Token} (proper : t.Proper) : Separate [t] := by
  refine ⟨proper, fun _ u none => ?_, trivial⟩
  cases none

/-- Tokens may be followed by anything that does not start with a word. -/
theorem Separate.append {t : Token} {ts us : List Token} (first : Separate ts)
    (second : Separate (t :: us)) (noWord : t.isWord = false) : Separate (ts ++ t :: us) := by
  induction ts with
  | nil => exact second
  | cons u ts ih =>
    obtain ⟨proper, apart, later⟩ := first
    refine ⟨proper, fun isOpen v next => ?_, ih later⟩
    cases ts with
    | nil =>
      cases next
      exact noWord
    | cons w ts => exact apart isOpen v next

/-- What follows an open token does not start with a character that could belong to it. -/
theorem Separate.ends {ts : List Token} (h : Separate ts)
    (noWord : ∀ u ∈ ts.head?, u.isWord = false) :
    ∀ c ∈ (spell ts).head?, isMethodChar c = false := by
  cases ts with
  | nil => exact fun c none => nomatch none
  | cons u ts =>
    have other := noWord u rfl
    have proper := h.1
    intro c first
    cases u with
    | word chars => cases other
    | method chars =>
      cases first
      rfl
    | operator chars =>
      cases first
      rfl
    | mark d =>
      have none : (signs ++ ['(', ')', '[', ']']).all (fun d => !isMethodChar d) := by decide
      have here := List.all_eq_true.1 none d proper
      rw [Bool.not_eq_true'] at here
      cases first
      exact here
    | comma =>
      cases first
      rfl

/-- Characters of one kind end where another kind begins. -/
theorem append_inj_of_class {p : Char → Bool} {w w' s s' : List Char} (all : ∀ c ∈ w, p c)
    (all' : ∀ c ∈ w', p c) (stop : ∀ c ∈ s.head?, p c = false)
    (stop' : ∀ c ∈ s'.head?, p c = false) (same : w ++ s = w' ++ s') : w = w' ∧ s = s' := by
  induction w generalizing w' with
  | nil =>
    cases w' with
    | nil => exact ⟨rfl, same⟩
    | cons c w' =>
      have here := stop c (by rw [← List.nil_append s, same]; rfl)
      rw [all' c List.mem_cons_self] at here
      cases here
  | cons c w ih =>
    obtain ⟨here, later⟩ := List.forall_mem_cons.1 all
    cases w' with
    | nil =>
      have there := stop' c (by rw [← List.nil_append s', ← same]; rfl)
      rw [here] at there
      cases there
    | cons c' w' =>
      obtain ⟨rfl, rest⟩ := List.cons_eq_cons.1 same
      obtain ⟨rfl, behind⟩ := ih later (List.forall_mem_cons.1 all').2 rest
      exact ⟨rfl, behind⟩

theorem isNameChar_eq_false {c : Char} (h : isMethodChar c = false) : isNameChar c = false := by
  simp only [isMethodChar, Bool.or_eq_false_iff] at h
  exact h.1.1

/-- A text starts with one token only. -/
theorem first_token_eq {t u : Token} {s s' : List Char} (proper : t.Proper) (proper' : u.Proper)
    (ends : t.isOpen → ∀ c ∈ s.head?, isMethodChar c = false)
    (ends' : u.isOpen → ∀ c ∈ s'.head?, isMethodChar c = false)
    (same : t.spelled ++ s = u.spelled ++ s') : t = u ∧ s = s' := by
  -- the first character tells the kind, so only tokens of one kind are left to compare
  have kinds : t.kind = u.kind := by
    obtain ⟨c, rest, chars, first⟩ := Token.exists_first proper
    obtain ⟨c', rest', chars', first'⟩ := Token.exists_first proper'
    rw [chars, chars', List.cons_append, List.cons_append] at same
    rw [← first, ← first', (List.cons_eq_cons.1 same).1]
  cases t with
  | word chars =>
    cases u
    case word chars' =>
      obtain ⟨c, rest, rfl, -, names⟩ := proper
      obtain ⟨c', rest', rfl, -, names'⟩ := proper'
      obtain ⟨rfl, behind⟩ := List.cons_eq_cons.1 same
      have stop : ∀ c ∈ s.head?, isNameChar c = false :=
        fun c first => isNameChar_eq_false (ends rfl c first)
      have stop' : ∀ c ∈ s'.head?, isNameChar c = false :=
        fun c first => isNameChar_eq_false (ends' rfl c first)
      obtain ⟨rfl, later⟩ := append_inj_of_class names names' stop stop' behind
      exact ⟨rfl, later⟩
    all_goals cases kinds
  | method chars =>
    cases u
    case method chars' =>
      obtain ⟨rfl, rest⟩ := append_inj_of_class proper proper' (ends rfl) (ends' rfl)
        (List.cons_eq_cons.1 same).2
      exact ⟨rfl, rest⟩
    all_goals cases kinds
  | operator chars =>
    cases u
    case operator chars' =>
      have inner {chars : List Char} (oneWord : ' ' ∉ chars) : ∀ c ∈ chars, (c != ' ') := by
        intro c mem
        exact bne_iff_ne.2 fun blank => oneWord (blank ▸ mem)
      have blank (s : List Char) : ∀ c ∈ (' ' :: s).head?, (c != ' ') = false := by
        intro c first
        cases first
        rfl
      have behind : chars ++ ' ' :: s = chars' ++ ' ' :: s' := by simpa [Token.spelled] using same
      obtain ⟨rfl, later⟩ :=
        append_inj_of_class (inner proper) (inner proper') (blank s) (blank s') behind
      exact ⟨rfl, (List.cons_eq_cons.1 later).2⟩
    all_goals cases kinds
  | mark c =>
    cases u
    case mark c' =>
      obtain ⟨rfl, rest⟩ := List.cons_eq_cons.1 same
      exact ⟨rfl, rest⟩
    all_goals cases kinds
  | comma =>
    cases u
    case comma => exact ⟨rfl, List.append_cancel_left same⟩
    all_goals cases kinds

/-- A text has only one sequence of separate tokens. -/
theorem spell_injective {ts us : List Token} (first : Separate ts) (second : Separate us)
    (same : spell ts = spell us) : ts = us := by
  induction ts generalizing us with
  | nil =>
    cases us with
    | nil => rfl
    | cons u us =>
      obtain ⟨c, rest, chars, -⟩ := Token.exists_first second.1
      rw [spell_cons, chars] at same
      cases same
  | cons t ts ih =>
    cases us with
    | nil =>
      obtain ⟨c, rest, chars, -⟩ := Token.exists_first first.1
      rw [spell_cons, chars] at same
      cases same
    | cons u us =>
      obtain ⟨proper, apart, later⟩ := first
      obtain ⟨proper', apart', later'⟩ := second
      rw [spell_cons, spell_cons] at same
      obtain ⟨rfl, rest⟩ := first_token_eq proper proper'
        (fun isOpen => later.ends (apart isOpen)) (fun isOpen => later'.ends (apart' isOpen)) same
      rw [ih later later' rest]

/-! ## Tokens of calls -/

/-- Tokens in parentheses. -/
def grouped (ts : List Token) : List Token := .mark '(' :: (ts ++ [.mark ')'])

/-- Several sequences of tokens with commas between them. -/
def listed (tss : List (List Token)) : List Token := [Token.comma].intercalate tss

/-- The tokens of a call, given those of its receiver and its arguments, each also as an operand. -/
def callTokens (receiver operand : List Token) (method : List Char)
    (args operands : List (List Token)) : List Token :=
  match CallStyle.ofMethod (Text.ofChars method) args.length with
  | .between => operand ++ .operator method :: operands.flatten
  | .before _ => .mark (method.headD ' ') :: operand
  | .element => operand ++ .mark '[' :: (listed args ++ [.mark ']'])
  | .elementWriter =>
    receiver ++ .mark '[' :: (listed args.dropLast
      ++ .mark ']' :: .operator ['='] :: args.getLast?.getD [])
  | .writer _ => receiver ++ .method method.dropLast :: .operator ['='] :: listed args
  | .plain => operand ++ .method method :: if args.isEmpty then [] else grouped (listed args)

/-- The tokens of an annotated tree as an operand. -/
def operandOf (s : Annotated (List Token)) : List Token :=
  if s.tree.isOperation then grouped s.value else s.value

/-- The tokens of a tree, given those of its children. -/
def treeTokens (t : Tree) (parts : List (Annotated (List Token))) : List Token :=
  match t with
  | .node (.known .call) _ (_ :: .atom (.sym method) :: _) =>
    let args := (parts[2]?.map Annotated.parts).getD []
    callTokens ((parts[0]?.map Annotated.value).getD []) ((parts[0]?.map operandOf).getD [])
      method.toList (args.map Annotated.value) (args.map operandOf)
  | .node _ _ (.atom (.sym name) :: _) => [.word name.toList]
  | .node _ _ (.atom (.int digits) :: _) => [.word digits.toList]
  | _ => []

end Signature

open Signature

namespace Tree

/-- The tokens of an expression. -/
def tokens (t : Tree) : List Token := (t.annotate treeTokens).value

/-- The tokens of an expression as an operand: an operation stands in parentheses. -/
def operandTokens (t : Tree) : List Token := if t.isOperation then grouped t.tokens else t.tokens

theorem operandOf_annotate (t : Tree) : operandOf (t.annotate treeTokens) = t.operandTokens := by
  rw [operandOf, tree_annotate]
  rfl

theorem tokens_callOn (line argsLine : Int) (receiver : Tree) (method : String)
    (args : List Tree) :
    (callOn line argsLine receiver method args).tokens
      = callTokens receiver.tokens receiver.operandTokens method.toList (args.map tokens)
        (args.map operandTokens) := by
  have values : (args.map (annotate treeTokens)).map Annotated.value = args.map tokens := by
    rw [List.map_map]
    rfl
  have operands : (args.map (annotate treeTokens)).map operandOf = args.map operandTokens := by
    rw [List.map_map]
    exact List.map_congr_left fun u _ => operandOf_annotate u
  rw [tokens, value_annotate, ← values, ← operands, ← operandOf_annotate]
  cases args with
  | nil => rfl
  | cons u args =>
    simp [callOn, argumentSlot, children, treeTokens, parts_annotate, tokens]

end Tree

/-! ## Expressions -/

/-- The methods that an expression can call with a number of arguments. -/
inductive IsCallable : String → Nat → Prop where
  | name {method : String} {arguments : Nat} (is : IsMethodName method.toList) :
    IsCallable method arguments
  | operator {method : String} (mem : method ∈ binaryOperators) : IsCallable method 1
  | sign {method : String} (mem : method ∈ ["-@", "+@", "~"]) : IsCallable method 0
  | element {arguments : Nat} : IsCallable "[]" arguments
  | writer {method : String} {attr : List Char} (is : IsIdentifier attr)
    (eq : method.toList = attr ++ ['=']) : IsCallable method 1
  | elementWriter {arguments : Nat} (some : 0 < arguments) : IsCallable "[]=" arguments

/-- Variables, constants, numbers and calls with a receiver, given which characters are in upper
case. -/
inductive Tree.IsExpression (isUpper : Char → Bool) : Tree → Prop where
  | lvar {line : Int} {name : String} (is : IsIdentifier name.toList)
      (lower : ∀ c ∈ name.toList.head?, isUpper c = false) :
      IsExpression isUpper (.known .lvar line [.atom (.sym name)])
  | const {line : Int} {name : String} (is : IsIdentifier name.toList)
      (upper : ∀ c ∈ name.toList.head?, isUpper c) :
      IsExpression isUpper (.known .const line [.atom (.sym name)])
  | ivar {line : Int} {name : String} (is : IsIdentifier name.toList) :
      IsExpression isUpper (.known .ivar line [.atom (.sym ("@" ++ name))])
  | lit {line : Int} {digits : String} (nonempty : digits ≠ "")
      (are : ∀ c ∈ digits.toList, c.isDigit) :
      IsExpression isUpper (.known .lit line [.atom (.int digits)])
  | call {line argsLine : Int} {receiver : Tree} {method : String} {args : List Tree}
      (on : IsExpression isUpper receiver) (each : ∀ u ∈ args, IsExpression isUpper u)
      (is : IsCallable method args.length) :
      IsExpression isUpper (.callOn line argsLine receiver method args)

theorem Tree.IsExpression.isNilAtom_eq_false {isUpper : Char → Bool} {t : Tree}
    (h : t.IsExpression isUpper) : t.isNilAtom = false := by
  cases h <;> rfl

/-! ### How writers and signs are written -/

theorem CallStyle.ofMethod_sign {method : String} (mem : method ∈ ["-@", "+@", "~"]) :
    ∃ c rest, method.toList = c :: rest ∧ c ∈ signs ∧
      CallStyle.ofMethod (Text.ofString method) 0 = .before (Text.ofChars [c]) := by
  simp only [List.mem_cons, List.not_mem_nil, or_false] at mem
  rcases mem with rfl | rfl | rfl
  · exact ⟨'-', ['@'], rfl, by decide, by decide⟩
  · exact ⟨'+', ['@'], rfl, by decide, by decide⟩
  · exact ⟨'~', [], rfl, by decide, by decide⟩

theorem CallStyle.ofMethod_elementWriter {arguments : Nat} (some : 0 < arguments) :
    CallStyle.ofMethod "[]=" arguments = .elementWriter := by
  have noOperator : isBinaryOperator "[]=" = false := by decide
  have noSign : unarySign? "[]=" = none := by decide
  have noElement : Text.ofString "[]=" ≠ Text.ofString "[]" := by decide
  simp [CallStyle.ofMethod, noOperator, noSign, noElement, some]

/-- A word that starts with another kind of character is no identifier with something behind it. -/
theorem ofString_ne_of_isIdentifier {attr : List Char} (is : IsIdentifier attr) (more : List Char)
    {word : String} (other : word.toList.head?.any isNameChar = false) :
    Text.ofString word ≠ Text.ofChars (attr ++ more) := by
  intro same
  obtain ⟨c, rest, rfl⟩ := List.exists_cons_of_ne_nil is.nonempty
  rw [Text.ofChars_injective same] at other
  exact absurd (is.chars c List.mem_cons_self) (Bool.eq_false_iff.1 other)

theorem writtenAttribute?_writer {attr : List Char} (is : IsIdentifier attr) :
    writtenAttribute? (Text.ofChars (attr ++ ['='])) = some (Text.ofChars attr) := by
  have others : ∀ op ∈ ["==", "!=", "<=", ">=", "===", "[]="],
      op.toList.head?.any isNameChar = false := by decide
  have noComparison : (["==", "!=", "<=", ">=", "===", "[]="].any fun op =>
      Text.ofString op = Text.ofChars (attr ++ ['='])) = false := by
    rw [List.any_eq_false]
    intro op mem
    simpa using ofString_ne_of_isIdentifier is ['='] (others op mem)
  have bytes : Text.ofChars (attr ++ ['=']) = Text.ofChars attr ++ Text.ofString "=" :=
    Text.ofChars_append attr ['=']
  have ends : (Text.ofChars attr ++ Text.ofString "=").endsWith "=" :=
    List.isSuffixOf_iff_suffix.2 (List.suffix_append _ _)
  have long : ¬ (Text.ofChars attr ++ Text.ofString "=").length < 2 := by
    obtain ⟨c, rest, rfl⟩ := List.exists_cons_of_ne_nil is.nonempty
    have := List.length_pos_iff.2 (@String.utf8EncodeChar_ne_nil c)
    simp only [Text.ofChars, List.flatMap_cons, List.length_append]
    have one : (Text.ofString "=").length = 1 := by decide
    omega
  rw [writtenAttribute?, noComparison, bytes, ends, decide_eq_false long]
  exact congrArg some List.dropLast_concat

theorem isBinaryOperator_writer {attr : List Char} (is : IsIdentifier attr) :
    isBinaryOperator (Text.ofChars (attr ++ ['='])) = false := by
  have others : ∀ op ∈ binaryOperators, op.toList.head?.any isNameChar = false := by decide
  rw [isBinaryOperator, List.any_eq_false]
  intro op mem
  simpa using ofString_ne_of_isIdentifier is ['='] (others op mem)

theorem CallStyle.ofMethod_writer {attr : List Char} (is : IsIdentifier attr) :
    CallStyle.ofMethod (Text.ofChars (attr ++ ['='])) 1 = .writer (Text.ofChars attr) := by
  have noElement : Text.ofChars (attr ++ ['=']) ≠ "[]" :=
    (ofString_ne_of_isIdentifier is ['='] (by decide)).symm
  have noElementWriter : Text.ofChars (attr ++ ['=']) ≠ "[]=" :=
    (ofString_ne_of_isIdentifier is ['='] (by decide)).symm
  simp [CallStyle.ofMethod, isBinaryOperator_writer is, noElement, noElementWriter,
    writtenAttribute?_writer is]

/-! ### Texts of expressions -/

/-- The text of a tree is spelled by its tokens, which are separate. -/
structure Tree.Writes (t : Tree) : Prop where
  rendered : t.render = .ok (Text.ofChars (spell t.tokens))
  separate : Separate t.tokens

section Writes

variable {t receiver : Tree} {args : List Tree}

theorem separate_grouped {ts : List Token} (h : Separate ts) : Separate (grouped ts) :=
  separate_mark (by decide) (h.append (separate_mark (by decide) trivial) rfl)

theorem separate_listed {tss : List (List Token)} (each : ∀ ts ∈ tss, Separate ts) :
    Separate (listed tss) := by
  induction tss with
  | nil => trivial
  | cons ts tss ih =>
    obtain ⟨first, later⟩ := List.forall_mem_cons.1 each
    cases tss with
    | nil =>
      rw [listed, List.intercalate_singleton]
      exact first
    | cons us tss =>
      rw [listed, List.intercalate_cons_cons, List.append_assoc]
      exact first.append (separate_cons trivial rfl (ih later)) rfl

theorem spell_listed (tss : List (List Token)) :
    spell (listed tss) = [',', ' '].intercalate (tss.map spell) := by
  induction tss with
  | nil => rfl
  | cons ts tss ih =>
    cases tss with
    | nil => simp [listed, List.intercalate_singleton]
    | cons us tss =>
      rw [listed, List.intercalate_cons_cons, List.append_assoc, spell_append, List.map_cons,
        List.map_cons, List.intercalate_cons_cons, List.append_assoc, ← List.map_cons, ← ih]
      rfl

theorem Tree.Writes.operand (h : t.Writes) :
    t.sketch.operand = .ok (Text.ofChars (spell t.operandTokens)) ∧ Separate t.operandTokens := by
  have rendered : t.sketch.text = .ok (Text.ofChars (spell t.tokens)) := h.rendered
  rw [Sketch.operand, rendered, Tree.tree_sketch, Tree.operandTokens]
  cases t.isOperation with
  | false => exact ⟨rfl, h.separate⟩
  | true =>
    refine ⟨?_, separate_grouped h.separate⟩
    simp [grouped, spell, Token.spelled, Text.ofChars, Text.ofString, pure, Except.pure, bind,
      Except.bind]

theorem list_eq (each : ∀ u ∈ args, u.Writes) :
    Sketch.list (args.map Tree.sketch)
      = .ok (Text.ofChars (spell (listed (args.map Tree.tokens)))) := by
  have texts : (args.map Tree.sketch).mapM Sketch.text
      = .ok (((args.map Tree.tokens).map spell).map Text.ofChars) := by
    rw [List.mapM_map, List.map_map, List.map_map]
    exact mapM_eq_ok fun u mem => (each u mem).rendered
  rw [Sketch.list, Sketch.joined, texts, spell_listed, ← join_map_ofChars]
  rfl

theorem separate_arguments (each : ∀ u ∈ args, u.Writes) :
    Separate (listed (args.map Tree.tokens)) := by
  apply separate_listed
  intro ts mem
  obtain ⟨u, is, rfl⟩ := List.mem_map.1 mem
  exact (each u is).separate

section Calls

variable {line argsLine : Int} {method : String}

/-! #### Methods behind a point -/

theorem tokens_send (is : IsMethodName method.toList) :
    (Tree.callOn line argsLine receiver method args).tokens
      = receiver.operandTokens ++ .method method.toList ::
        if args.isEmpty then [] else grouped (listed (args.map Tree.tokens)) := by
  rw [Tree.tokens_callOn, callTokens, CallStyle.ofMethod_name is, List.isEmpty_map]

theorem writes_send (on : receiver.Writes) (present : receiver.isNilAtom = false)
    (is : IsMethodName method.toList) (each : ∀ u ∈ args, u.Writes) :
    (Tree.callOn line argsLine receiver method args).Writes := by
  obtain ⟨rendered, separate⟩ := on.operand
  have style : CallStyle.ofMethod (Text.ofString method) args.length = .plain :=
    CallStyle.ofMethod_name is args.length
  have name : (Token.method method.toList).Proper := isMethodChar_of_mem is
  refine ⟨?_, ?_⟩
  · rw [render_callOn, callText, filter_present present, tokens_send is]
    simp only [List.length_map, style, rendered, callText.withArguments, list_eq each]
    cases args <;>
      simp [grouped, spell, Token.spelled, Text.ofChars, Text.ofString, pure, Except.pure, bind,
        Except.bind]
  · rw [tokens_send is]
    refine separate.append ⟨name, ?_, ?_⟩ rfl
    · cases args <;> simp [grouped, Token.isWord]
    · split
      · trivial
      · exact separate_grouped (separate_arguments each)

/-! #### Elements -/

theorem tokens_element :
    (Tree.callOn line argsLine receiver "[]" args).tokens
      = receiver.operandTokens ++ .mark '[' :: (listed (args.map Tree.tokens) ++ [.mark ']']) := by
  have style : CallStyle.ofMethod (Text.ofChars "[]".toList) (args.map Tree.tokens).length
      = .element := CallStyle.ofMethod_element _
  rw [Tree.tokens_callOn, callTokens, style]

theorem writes_element (on : receiver.Writes) (present : receiver.isNilAtom = false)
    (each : ∀ u ∈ args, u.Writes) : (Tree.callOn line argsLine receiver "[]" args).Writes := by
  obtain ⟨rendered, separate⟩ := on.operand
  refine ⟨?_, ?_⟩
  · rw [render_callOn, callText, filter_present present, tokens_element]
    simp only [List.length_map, CallStyle.ofMethod_element, rendered, list_eq each]
    simp [spell, Token.spelled, Text.ofChars, Text.ofString, pure, Except.pure, bind, Except.bind]
  · rw [tokens_element]
    refine separate.append (separate_mark (by decide) ?_) rfl
    exact (separate_arguments each).append (separate_mark (by decide) trivial) rfl

/-! #### Operators and signs -/

theorem tokens_between {right : Tree} (mem : method ∈ binaryOperators) :
    (Tree.callOn line argsLine receiver method [right]).tokens
      = receiver.operandTokens ++ .operator method.toList :: right.operandTokens := by
  have style : CallStyle.ofMethod (Text.ofChars method.toList) 1 = .between :=
    CallStyle.ofMethod_operator mem
  simp [Tree.tokens_callOn, callTokens, style]

theorem writes_between {right : Tree} (on : receiver.Writes) (present : receiver.isNilAtom = false)
    (mem : method ∈ binaryOperators) (second : right.Writes) :
    (Tree.callOn line argsLine receiver method [right]).Writes := by
  obtain ⟨rendered, separate⟩ := on.operand
  obtain ⟨rendered', separate'⟩ := second.operand
  obtain ⟨oneWord, -⟩ := binaryOperators_plain method mem
  refine ⟨?_, ?_⟩
  · rw [render_callOn, callText, filter_present present, tokens_between mem]
    simp only [List.length_singleton, CallStyle.ofMethod_operator mem, rendered, List.map_cons,
      List.map_nil, List.mapM_cons, List.mapM_nil, rendered']
    simp [spell, Token.spelled, Text.ofChars, Text.ofString, Text.join, pure, Except.pure, bind,
      Except.bind]
  · rw [tokens_between mem]
    exact separate.append (separate_operator oneWord separate') rfl

theorem tokens_sign (mem : method ∈ ["-@", "+@", "~"]) :
    (Tree.callOn line argsLine receiver method []).tokens
      = .mark (method.toList.headD ' ') :: receiver.operandTokens := by
  obtain ⟨c, rest, -, -, style⟩ := CallStyle.ofMethod_sign mem
  have known : CallStyle.ofMethod (Text.ofChars method.toList) 0 = .before (Text.ofChars [c]) :=
    style
  simp [Tree.tokens_callOn, callTokens, known]

theorem writes_sign (on : receiver.Writes) (present : receiver.isNilAtom = false)
    (mem : method ∈ ["-@", "+@", "~"]) :
    (Tree.callOn line argsLine receiver method []).Writes := by
  obtain ⟨rendered, separate⟩ := on.operand
  obtain ⟨c, rest, chars, known, style⟩ := CallStyle.ofMethod_sign mem
  refine ⟨?_, ?_⟩
  · rw [render_callOn, callText, filter_present present, tokens_sign mem, chars]
    simp only [List.length_map, List.length_nil, style, rendered]
    simp [spell, Token.spelled, Text.ofChars, pure, Except.pure, bind, Except.bind]
  · rw [tokens_sign mem, chars]
    exact separate_mark (List.mem_append_left _ known) separate

/-! #### Writers -/

theorem tokens_writer {value : Tree} {attr : List Char} (is : IsIdentifier attr)
    (eq : method.toList = attr ++ ['=']) :
    (Tree.callOn line argsLine receiver method [value]).tokens
      = receiver.tokens ++ .method attr :: .operator ['='] :: value.tokens := by
  have style : CallStyle.ofMethod (Text.ofChars method.toList) ([value].map Tree.tokens).length
      = .writer (Text.ofChars attr) := by
    rw [eq]
    exact CallStyle.ofMethod_writer is
  rw [Tree.tokens_callOn, callTokens, style]
  simp [eq, listed, List.intercalate_singleton]

theorem writes_writer {value : Tree} {attr : List Char} (on : receiver.Writes)
    (present : receiver.isNilAtom = false) (is : IsIdentifier attr)
    (eq : method.toList = attr ++ ['=']) (assigned : value.Writes) :
    (Tree.callOn line argsLine receiver method [value]).Writes := by
  have rendered : receiver.sketch.text = .ok (Text.ofChars (spell receiver.tokens)) := on.rendered
  have listed := list_eq (List.forall_mem_singleton.2 assigned)
  have style : CallStyle.ofMethod (Text.ofString method) 1 = .writer (Text.ofChars attr) := by
    rw [Text.ofString, eq]
    exact CallStyle.ofMethod_writer is
  refine ⟨?_, ?_⟩
  · rw [render_callOn, callText, filter_present present, tokens_writer is eq]
    simp only [List.length_map, List.length_singleton, style, rendered, listed]
    simp [Signature.listed, spell, Token.spelled, Text.ofChars, Text.ofString, pure, Except.pure,
      bind, Except.bind]
  · have name : (Token.method attr).Proper :=
      fun c mem => isMethodChar_of_isNameChar (is.chars c mem)
    rw [tokens_writer is eq]
    refine on.separate.append ⟨name, ?_, separate_operator (by decide) assigned.separate⟩ rfl
    rintro - u next
    cases next
    rfl

theorem tokens_elementWriter {value : Tree} :
    (Tree.callOn line argsLine receiver "[]=" (args ++ [value])).tokens
      = receiver.tokens ++ .mark '[' :: (listed (args.map Tree.tokens)
        ++ .mark ']' :: .operator ['='] :: value.tokens) := by
  have style : CallStyle.ofMethod (Text.ofChars "[]=".toList)
      ((args ++ [value]).map Tree.tokens).length = .elementWriter :=
    CallStyle.ofMethod_elementWriter (by simp)
  rw [Tree.tokens_callOn, callTokens, style]
  simp

theorem writes_elementWriter {value : Tree} (on : receiver.Writes)
    (present : receiver.isNilAtom = false) (each : ∀ u ∈ args, u.Writes) (assigned : value.Writes) :
    (Tree.callOn line argsLine receiver "[]=" (args ++ [value])).Writes := by
  have rendered : receiver.sketch.text = .ok (Text.ofChars (spell receiver.tokens)) := on.rendered
  have last := list_eq (List.forall_mem_singleton.2 assigned)
  have style : CallStyle.ofMethod "[]=" ((args ++ [value]).map Tree.sketch).length
      = .elementWriter := CallStyle.ofMethod_elementWriter (by simp)
  refine ⟨?_, ?_⟩
  · rw [List.map_cons, List.map_nil] at last
    rw [render_callOn, callText, filter_present present, tokens_elementWriter]
    simp only [style, rendered]
    simp only [List.map_append, List.map_cons, List.map_nil, List.dropLast_concat,
      List.getLast?_concat, Option.toList_some, list_eq each, last]
    simp [listed, spell, Token.spelled, Text.ofChars, Text.ofString, pure, Except.pure, bind,
      Except.bind]
  · rw [tokens_elementWriter]
    refine on.separate.append (separate_mark (by decide) ?_) rfl
    refine (separate_arguments each).append (separate_mark (by decide) ?_) rfl
    exact separate_operator (by decide) assigned.separate

end Calls

/-! #### Words -/

theorem writes_word {word : List Char} (rendered : t.render = .ok (Text.ofChars word))
    (tokens : t.tokens = [.word word]) (proper : (Token.word word).Proper) : t.Writes := by
  refine ⟨?_, ?_⟩
  · rw [rendered, tokens, spell, List.flatMap_singleton]
    rfl
  · rw [tokens]
    exact separate_singleton proper

theorem proper_name {word : List Char} (nonempty : word ≠ []) (names : ∀ c ∈ word, isNameChar c) :
    (Token.word word).Proper := by
  obtain ⟨c, rest, rfl⟩ := List.exists_cons_of_ne_nil nonempty
  obtain ⟨first, later⟩ := List.forall_mem_cons.1 names
  exact ⟨c, rest, rfl, by simp [isWordStart, first], later⟩

theorem exists_concat (some : 0 < args.length) : ∃ before value, args = before ++ [value] := by
  have nonempty := List.length_pos_iff.1 some
  exact ⟨args.dropLast, args.getLast nonempty, (List.dropLast_append_getLast nonempty).symm⟩

/-- The text of every expression is spelled by its tokens. -/
theorem Tree.IsExpression.writes {isUpper : Char → Bool} (h : t.IsExpression isUpper) :
    t.Writes := by
  induction h with
  | lvar is _ => exact writes_word rfl rfl (proper_name is.nonempty is.chars)
  | const is _ => exact writes_word rfl rfl (proper_name is.nonempty is.chars)
  | @ivar line name is =>
    have chars : ("@" ++ name).toList = '@' :: name.toList := String.toList_append
    refine writes_word rfl rfl ?_
    rw [chars]
    exact ⟨'@', name.toList, rfl, rfl, is.chars⟩
  | lit nonempty are =>
    refine writes_word rfl rfl (proper_name (mt String.toList_eq_nil_iff.1 nonempty) ?_)
    exact fun c mem => isNameChar_of_isDigit (are c mem)
  | @call line argsLine receiver method args inner all is on each =>
    have present := inner.isNilAtom_eq_false
    generalize count : args.length = n at is
    cases is with
    | name is => exact writes_send on present is each
    | operator mem =>
      obtain ⟨right, rfl⟩ := List.length_eq_one_iff.1 count
      exact writes_between on present mem (each right List.mem_cons_self)
    | sign mem =>
      obtain rfl := List.length_eq_zero_iff.1 count
      exact writes_sign on present mem
    | element => exact writes_element on present each
    | writer is eq =>
      obtain ⟨value, rfl⟩ := List.length_eq_one_iff.1 count
      exact writes_writer on present is eq (each value List.mem_cons_self)
    | elementWriter some =>
      obtain ⟨before, value, rfl⟩ := exists_concat (count ▸ some)
      obtain ⟨earlier, last⟩ := List.forall_mem_append.1 each
      exact writes_elementWriter on present earlier (last value List.mem_cons_self)

end Writes

/-- Two expressions have the same text exactly if they have the same tokens. -/
theorem Tree.render_eq_iff_tokens_eq {a b : Tree} (first : a.Writes) (second : b.Writes) :
    a.render = b.render ↔ a.tokens = b.tokens := by
  constructor
  · intro same
    rw [first.rendered, second.rendered] at same
    have chars := Text.ofChars_injective (Except.ok.inj same)
    exact spell_injective first.separate second.separate chars
  · intro same
    rw [first.rendered, second.rendered, same]

end CodeSmell
