import CodeSmell.Proofs.Readings
import CodeSmell.Proofs.SignatureReader

/-!
# Signatures determine calls

On expressions made of variables, constants, numbers, strings, operators and calls
(`Tree.IsCore`), the text of an expression determines it up to lines. Such a text is always there
and is read back: `exists_spelled_of_isCore` goes through the ways to put an expression together
and pairs the rule that renders each with the lemma that reads it.
-/

set_option autoImplicit false

namespace CodeSmell

open Signature

/-! ## Core expressions -/

mutual

/-- The tree with every line unknown. -/
def Tree.withoutLines : Tree → Tree
  | .node tag _ cs => .node tag 0 (Tree.withoutLinesAll cs)
  | .atom a => .atom a

/-- The trees with every line unknown. -/
def Tree.withoutLinesAll : List Tree → List Tree
  | [] => []
  | t :: ts => t.withoutLines :: Tree.withoutLinesAll ts

end

theorem Tree.withoutLinesAll_eq_map (ts : List Tree) :
    Tree.withoutLinesAll ts = ts.map Tree.withoutLines := by
  induction ts with
  | nil => rfl
  | cons t ts ih => rw [Tree.withoutLinesAll, ih, List.map_cons]

/-- The characters of an identifier, which does not start with a digit. -/
structure IsIdentifier (word : List Char) : Prop where
  nonempty : word ≠ []
  start : ∀ c ∈ word.head?, c.isDigit = false
  chars : ∀ c ∈ word, isNameChar c

/-- The characters of a method name: an identifier that may end in a mark. -/
def IsMethodName (name : List Char) : Prop :=
  ∃ word, IsIdentifier word ∧ (name = word ∨ name = word ++ ['?'] ∨ name = word ++ ['!'])

/-- A method that a core expression can call with a number of arguments. -/
def IsCoreMethod (method : String) (arguments : Nat) : Prop :=
  IsMethodName method.toList ∨ method = "[]" ∨ method ∈ binaryOperators ∧ arguments = 1

/-- The core expressions, given which characters are in upper case. -/
inductive Tree.IsCore (isUpper : Char → Bool) : Tree → Prop where
  | lvar {line : Int} {name : String} (is : IsIdentifier name.toList)
      (lower : ∀ c ∈ name.toList.head?, isUpper c = false) :
      IsCore isUpper (.known .lvar line [.atom (.sym name)])
  | const {line : Int} {name : String} (is : IsIdentifier name.toList)
      (upper : ∀ c ∈ name.toList.head?, isUpper c) :
      IsCore isUpper (.known .const line [.atom (.sym name)])
  | ivar {line : Int} {name : String} (is : IsIdentifier name.toList) :
      IsCore isUpper (.known .ivar line [.atom (.sym ("@" ++ name))])
  | lit {line : Int} {digits : String} (nonempty : digits ≠ "")
      (are : ∀ c ∈ digits.toList, c.isDigit) :
      IsCore isUpper (.known .lit line [.atom (.int digits)])
  | str {line : Int} {value : Text} : IsCore isUpper (.known .str line [.atom (.str value)])
  | and {line : Int} {left right : Tree} (first : IsCore isUpper left)
      (second : IsCore isUpper right) : IsCore isUpper (.known .and line [left, right])
  | or {line : Int} {left right : Tree} (first : IsCore isUpper left)
      (second : IsCore isUpper right) : IsCore isUpper (.known .or line [left, right])
  | call {line argsLine : Int} {receiver : Tree} {method : String} {args : List Tree}
      (on : IsCore isUpper receiver) (each : ∀ u ∈ args, IsCore isUpper u)
      (is : IsCoreMethod method args.length) :
      IsCore isUpper (.callOn line argsLine receiver method args)

theorem Tree.IsCore.isNilAtom_eq_false {isUpper : Char → Bool} {t : Tree} (h : t.IsCore isUpper) :
    t.isNilAtom = false := by
  cases h <;> rfl

/-! ## How names are written -/

theorem isMethodChar_of_isNameChar {c : Char} (h : isNameChar c) : isMethodChar c := by
  simp [isMethodChar, h]

theorem isMethodChar_of_mem {name : List Char} (h : IsMethodName name) :
    ∀ c ∈ name, isMethodChar c := by
  obtain ⟨word, is, eq⟩ := h
  have inner : ∀ c ∈ word, isMethodChar c :=
    fun c mem => isMethodChar_of_isNameChar (is.chars c mem)
  rcases eq with rfl | rfl | rfl
  · exact inner
  · exact List.forall_mem_append.2 ⟨inner, List.forall_mem_singleton.2 rfl⟩
  · exact List.forall_mem_append.2 ⟨inner, List.forall_mem_singleton.2 rfl⟩

/-- A method name starts like an identifier. -/
theorem exists_cons_of_isMethodName {name : List Char} (h : IsMethodName name) :
    ∃ c rest, name = c :: rest ∧ isNameChar c := by
  obtain ⟨word, is, eq⟩ := h
  obtain ⟨c, rest, rfl⟩ := List.exists_cons_of_ne_nil is.nonempty
  have first := is.chars c List.mem_cons_self
  rcases eq with rfl | rfl | rfl
  · exact ⟨c, rest, rfl, first⟩
  · exact ⟨c, rest ++ ['?'], rfl, first⟩
  · exact ⟨c, rest ++ ['!'], rfl, first⟩

/-- A word that starts with another kind of character is no method name. -/
theorem ofString_ne_of_isMethodName {name : List Char} (h : IsMethodName name) {word : String}
    (other : word.toList.head?.any isNameChar = false) :
    Text.ofString word ≠ Text.ofChars name := by
  intro same
  obtain ⟨c, rest, rfl, first⟩ := exists_cons_of_isMethodName h
  rw [Text.ofChars_injective same] at other
  exact absurd first (Bool.eq_false_iff.1 other)

theorem writtenAttribute?_eq_none {name : List Char} (h : IsMethodName name) :
    writtenAttribute? (Text.ofChars name) = none := by
  have noWriter : (Text.ofChars name).endsWith "=" = false := by
    refine Bool.eq_false_iff.2 fun ends => ?_
    have suffix : Text.ofString "=" <:+ Text.ofChars name := List.isSuffixOf_iff_suffix.1 ends
    -- the byte of the equals sign belongs to a character of the name, which must be that sign
    have byte : 0x3D ∈ Text.ofChars name := suffix.subset (by decide)
    obtain ⟨c, mem, inside⟩ := List.mem_flatMap.1 byte
    have method := isMethodChar_of_mem h c mem
    have same : c = '=' := Char.toNat_inj.1 (Text.toNat_of_mem_utf8EncodeChar inside (by decide))
    rw [same] at method
    exact absurd method (by decide)
  simp [writtenAttribute?, noWriter]

theorem isBinaryOperator_eq_false {name : List Char} (h : IsMethodName name) :
    isBinaryOperator (Text.ofChars name) = false := by
  have others : ∀ op ∈ binaryOperators, op.toList.head?.any isNameChar = false := by decide
  rw [isBinaryOperator, List.any_eq_false]
  intro op mem
  simpa using ofString_ne_of_isMethodName h (others op mem)

theorem unarySign?_eq_none {name : List Char} (h : IsMethodName name) :
    unarySign? (Text.ofChars name) = none := by
  have others : ∀ op ∈ unaryOperators, op.1.toList.head?.any isNameChar = false := by decide
  rw [unarySign?, Option.map_eq_none_iff, List.find?_eq_none]
  intro op mem
  simpa using ofString_ne_of_isMethodName h (others op mem)

/-- A named method stands behind a point. -/
theorem CallStyle.ofMethod_name {name : List Char} (h : IsMethodName name) (arguments : Nat) :
    CallStyle.ofMethod (Text.ofChars name) arguments = .plain := by
  have noElement : Text.ofChars name ≠ "[]" := (ofString_ne_of_isMethodName h (by decide)).symm
  have noWriter : Text.ofChars name ≠ "[]=" := (ofString_ne_of_isMethodName h (by decide)).symm
  simp [CallStyle.ofMethod, isBinaryOperator_eq_false h, unarySign?_eq_none h,
    writtenAttribute?_eq_none h, noElement, noWriter]

theorem CallStyle.ofMethod_element (arguments : Nat) :
    CallStyle.ofMethod "[]" arguments = .element := by
  have noOperator : isBinaryOperator "[]" = false := by decide
  have noSign : unarySign? "[]" = none := by decide
  simp [CallStyle.ofMethod, noOperator, noSign]

theorem isBinaryOperator_of_mem {op : String} (mem : op ∈ binaryOperators) :
    isBinaryOperator (Text.ofString op) = true :=
  List.any_eq_true.2 ⟨op, mem, by simp⟩

theorem CallStyle.ofMethod_operator {op : String} (mem : op ∈ binaryOperators) :
    CallStyle.ofMethod (Text.ofString op) 1 = .between := by
  simp [CallStyle.ofMethod, isBinaryOperator_of_mem mem]

/-! ## Expressions and their texts -/

/-- A text is that of an expression, and reads as the expression without its lines. -/
structure Spelled (isUpper : Char → Bool) (t : Tree) (text : List Char) : Prop where
  rendered : t.render = .ok (Text.ofChars text)
  readsAs : ReadsAs isUpper text t.withoutLines
  operand : t.isOperation = false → ReadsAsOperand isUpper text t.withoutLines

section

variable {isUpper : Char → Bool} {t receiver left right : Tree} {args : List Tree}
  {text leftText rightText : List Char}

theorem spelled_of_operand (rendered : t.render = .ok (Text.ofChars text))
    (operand : ReadsAsOperand isUpper text t.withoutLines) : Spelled isUpper t text :=
  ⟨rendered, operand.readsAs, fun _ => operand⟩

/-- As an operand, an operation stands in parentheses. -/
theorem Spelled.exists_operand (h : Spelled isUpper t text) :
    ∃ inner, t.sketch.operand = .ok (Text.ofChars inner) ∧
      ReadsAsOperand isUpper inner t.withoutLines := by
  have rendered : t.sketch.text = .ok (Text.ofChars text) := h.rendered
  cases operation : t.isOperation with
  | false =>
    refine ⟨text, ?_, h.operand operation⟩
    rw [Sketch.operand, rendered, Tree.tree_sketch, operation]
    rfl
  | true =>
    refine ⟨'(' :: (text ++ [')']), ?_, readsAsOperand_group h.readsAs⟩
    rw [Sketch.operand, rendered, Tree.tree_sketch, operation, ← List.singleton_append,
      Text.ofChars_append, Text.ofChars_append, ← List.append_assoc]
    rfl

/-! ### Words -/

theorem spelled_word {c : Char} {word : List Char}
    (rendered : t.render = .ok (Text.ofChars (c :: word))) (starts : c ∉ ['(', '"', ']'])
    (name : ∀ d ∈ word, isNameChar d) (is : ofWord isUpper (c :: word) = t.withoutLines) :
    Spelled isUpper t (c :: word) :=
  spelled_of_operand rendered (is ▸ readsAsOperand_word starts name)

theorem ne_of_isNameChar {c d : Char} (h : isNameChar c) (other : isNameChar d = false) :
    c ≠ d := by
  rintro rfl
  rw [h] at other
  cases other

theorem notMem_of_isNameChar {c : Char} (h : isNameChar c) : c ∉ ['(', '"', ']'] := by
  simp [ne_of_isNameChar h (d := '(') rfl, ne_of_isNameChar h (d := '"') rfl,
    ne_of_isNameChar h (d := ']') rfl]

/-- The case of its first character tells a variable from a constant. -/
theorem ofWord_name {k : Keyword} {name : String} (is : IsIdentifier name.toList)
    (kind : ∀ c ∈ name.toList.head?, k = if isUpper c then .const else .lvar) :
    ofWord isUpper name.toList = .known k 0 [.atom (.sym name)] := by
  have word : String.ofList name.toList = name := String.ofList_toList
  obtain ⟨c, rest, chars⟩ := List.exists_cons_of_ne_nil is.nonempty
  rw [chars] at is kind word ⊢
  have noAt : c ≠ '@' := ne_of_isNameChar (is.chars c List.mem_cons_self) rfl
  simp only [ofWord, List.headD_cons, if_neg noAt, is.start c rfl, Bool.false_eq_true, if_false,
    word, kind c rfl]
  split <;> rfl

theorem spelled_name {k : Keyword} {name : String} (is : IsIdentifier name.toList)
    (kind : ∀ c ∈ name.toList.head?, k = if isUpper c then .const else .lvar) (line : Int) :
    Spelled isUpper (.known k line [.atom (.sym name)]) name.toList := by
  have word := ofWord_name is kind
  have rendered : Text.ofString name = Text.ofChars name.toList := rfl
  obtain ⟨c, rest, chars⟩ := List.exists_cons_of_ne_nil is.nonempty
  rw [chars] at is kind word rendered ⊢
  obtain ⟨first, later⟩ := List.forall_mem_cons.1 is.chars
  refine spelled_word ?_ (notMem_of_isNameChar first) later word
  rw [← rendered, kind c rfl]
  split <;> rfl

theorem ofWord_ivar (name : String) :
    ofWord isUpper ("@" ++ name).toList = .known .ivar 0 [.atom (.sym ("@" ++ name))] := by
  have chars : ("@" ++ name).toList = '@' :: name.toList := String.toList_append
  have first : ("@" ++ name).toList.headD ' ' = '@' := by rw [chars, List.headD_cons]
  simp only [ofWord, first, if_true, String.ofList_toList]

theorem spelled_ivar {name : String} (is : IsIdentifier name.toList) (line : Int) :
    Spelled isUpper (.known .ivar line [.atom (.sym ("@" ++ name))]) ('@' :: name.toList) := by
  have chars : ("@" ++ name).toList = '@' :: name.toList := String.toList_append
  refine spelled_word ?_ (by decide) is.chars (chars ▸ ofWord_ivar name)
  rw [← chars]
  rfl

theorem isNameChar_of_isDigit {c : Char} (h : c.isDigit) : isNameChar c := by
  simp [isNameChar, Char.isAlphanum, h]

theorem ofWord_lit {digits : String} (nonempty : digits ≠ "")
    (are : ∀ c ∈ digits.toList, c.isDigit) :
    ofWord isUpper digits.toList = .known .lit 0 [.atom (.int digits)] := by
  have word : String.ofList digits.toList = digits := String.ofList_toList
  obtain ⟨c, rest, chars⟩ := List.exists_cons_of_ne_nil (mt String.toList_eq_nil_iff.1 nonempty)
  rw [chars] at are word ⊢
  have first := are c List.mem_cons_self
  have noAt : c ≠ '@' := ne_of_isNameChar (isNameChar_of_isDigit first) rfl
  simp only [ofWord, List.headD_cons, if_neg noAt, first, if_true, word]

theorem spelled_lit {digits : String} (nonempty : digits ≠ "")
    (are : ∀ c ∈ digits.toList, c.isDigit) (line : Int) :
    Spelled isUpper (.known .lit line [.atom (.int digits)]) digits.toList := by
  have word : ofWord isUpper digits.toList = .known .lit 0 [.atom (.int digits)] :=
    ofWord_lit nonempty are
  have rendered : Text.ofString digits = Text.ofChars digits.toList := rfl
  obtain ⟨c, rest, chars⟩ := List.exists_cons_of_ne_nil (mt String.toList_eq_nil_iff.1 nonempty)
  rw [chars] at are word rendered ⊢
  obtain ⟨first, later⟩ := List.forall_mem_cons.1 are
  refine spelled_word ?_ (notMem_of_isNameChar (isNameChar_of_isDigit first))
    (fun d mem => isNameChar_of_isDigit (later d mem)) word
  rw [← rendered]
  rfl

theorem spelled_str (value : Text) (line : Int) :
    Spelled isUpper (.known .str line [.atom (.str value)]) (Quoted.encode value) :=
  spelled_of_operand rfl (readsAsOperand_string value)

/-! ### Operations -/

theorem exists_spelled_operation {operator : List Char} (first : Spelled isUpper left leftText)
    (second : Spelled isUpper right rightText) (oneWord : ' ' ∉ operator)
    (rendered : t.render = do
      return (← left.sketch.operand) ++ Text.ofChars (' ' :: (operator ++ [' '])) ++
        (← right.sketch.operand))
    (is : operation left.withoutLines operator right.withoutLines = t.withoutLines)
    (operand : t.isOperation) : ∃ text, Spelled isUpper t text := by
  obtain ⟨before, renderedLeft, readsLeft⟩ := first.exists_operand
  obtain ⟨behind, renderedRight, readsRight⟩ := second.exists_operand
  refine ⟨before ++ ' ' :: (operator ++ ' ' :: behind), ?_, ?_, ?_⟩
  · have whole : before ++ ' ' :: (operator ++ ' ' :: behind) =
        before ++ ' ' :: (operator ++ [' ']) ++ behind := by simp
    rw [rendered, renderedLeft, renderedRight, whole, Text.ofChars_append, Text.ofChars_append]
    rfl
  · rw [← is]
    exact readsAs_operation readsLeft readsRight oneWord
  · intro plain
    rw [plain] at operand
    cases operand

/-! ### Arguments -/

theorem join_map_ofChars (texts : List (List Char)) :
    Text.join ", " (texts.map Text.ofChars) = Text.ofChars ([',', ' '].intercalate texts) := by
  induction texts with
  | nil => rfl
  | cons text texts ih =>
    cases texts with
    | nil => simp [Text.join, List.intercalate_singleton]
    | cons text' texts =>
      rw [List.intercalate_cons_cons, Text.ofChars_append, Text.ofChars_append, ← ih]
      exact List.intercalate_cons_cons

theorem exists_texts_of_spelled (each : ∀ u ∈ args, ∃ text, Spelled isUpper u text) :
    ∃ texts : List (List Char),
      (args.map Tree.sketch).mapM Sketch.text = .ok (texts.map Text.ofChars) ∧
        List.Forall₂ (ReadsAs isUpper) texts (args.map Tree.withoutLines) := by
  induction args with
  | nil => exact ⟨[], rfl, .nil⟩
  | cons u args ih =>
    obtain ⟨⟨text, spelled⟩, later⟩ := List.forall_mem_cons.1 each
    obtain ⟨texts, rendered, reads⟩ := ih later
    have here : u.sketch.text = .ok (Text.ofChars text) := spelled.rendered
    refine ⟨text :: texts, ?_, .cons spelled.readsAs reads⟩
    rw [List.map_cons, List.mapM_cons, rendered, here]
    rfl

theorem exists_list_of_spelled (each : ∀ u ∈ args, ∃ text, Spelled isUpper u text) :
    ∃ texts : List (List Char),
      Sketch.list (args.map Tree.sketch) = .ok (Text.ofChars ([',', ' '].intercalate texts)) ∧
        List.Forall₂ (ReadsAs isUpper) texts (args.map Tree.withoutLines) := by
  obtain ⟨texts, rendered, reads⟩ := exists_texts_of_spelled each
  refine ⟨texts, ?_, reads⟩
  rw [Sketch.list, Sketch.joined, rendered, ← join_map_ofChars]
  rfl

/-! ### Calls -/

section Calls

variable {line argsLine : Int} {method : String}

theorem withoutLines_callOn :
    (Tree.callOn line argsLine receiver method args).withoutLines =
      call receiver.withoutLines method.toList (args.map Tree.withoutLines) := by
  rw [call, String.ofList_toList, Tree.callOn, Tree.callOn, Tree.withoutLines,
    Tree.withoutLinesAll_eq_map]
  cases args with
  | nil => rfl
  | cons u args =>
    simp [argumentSlot, Tree.withoutLines, Tree.withoutLinesAll_eq_map]

theorem render_callOn :
    (Tree.callOn line argsLine receiver method args).render =
      callText (some receiver.sketch) (Text.ofString method) (args.map Tree.sketch) := by
  have arguments : Tree.argumentsAt
      (receiver :: .atom (.sym method) :: argumentSlot argsLine args) 2 = args := by
    cases args <;> rfl
  rw [Tree.render_eq, Tree.callOn, treeText, nodeText, Tree.argumentsAt_map_sketch, Tree.children,
    arguments]
  rfl

theorem isOperation_callOn (present : receiver.isNilAtom = false) :
    (Tree.callOn line argsLine receiver method args).isOperation =
      (isBinaryOperator (Text.ofString method) && args.length == 1) := by
  have filled : Tree.isEmptyAt
      (receiver :: .atom (.sym method) :: argumentSlot argsLine args) 0 = false := present
  rw [Tree.callOn, Tree.isOperation, filled]
  cases args with
  | nil => simp [argumentSlot]
  | cons u args =>
    simp [argumentSlot, Tree.arguments, Tree.nameAt, Tree.name, Atom.text]

theorem filter_present (present : receiver.isNilAtom = false) :
    (some receiver.sketch).filter (fun r => !r.tree.isNilAtom) = some receiver.sketch := by
  rw [Option.filter_some, Tree.tree_sketch, present]
  rfl

theorem exists_spelled_send (on : Spelled isUpper receiver text)
    (present : receiver.isNilAtom = false) (is : IsMethodName method.toList)
    (each : ∀ u ∈ args, ∃ text, Spelled isUpper u text) :
    ∃ text, Spelled isUpper (.callOn line argsLine receiver method args) text := by
  obtain ⟨inner, rendered, reads⟩ := on.exists_operand
  obtain ⟨texts, renderedAll, readsAll⟩ := exists_list_of_spelled each
  have chars := isMethodChar_of_mem is
  have style : CallStyle.ofMethod (Text.ofString method) args.length = .plain :=
    CallStyle.ofMethod_name is args.length
  have whole : (Tree.callOn line argsLine receiver method args).render = do
      return Text.ofChars inner ++ "." ++
        (← callText.withArguments (Text.ofString method) (args.map Tree.sketch)) := by
    rw [render_callOn, callText, filter_present present]
    simp only [List.length_map, style, rendered]
    rfl
  by_cases empty : args = []
  · subst empty
    refine ⟨inner ++ '.' :: method.toList, spelled_of_operand ?_ ?_⟩
    · rw [whole, ← List.singleton_append, Text.ofChars_append, Text.ofChars_append,
        ← List.append_assoc]
      rfl
    · rw [withoutLines_callOn]
      exact readsAsOperand_send reads chars
  · have nonempty : args.map Tree.withoutLines ≠ [] := mt List.map_eq_nil_iff.1 empty
    refine ⟨inner ++ '.' :: (method.toList ++ '(' :: ([',', ' '].intercalate texts ++ [')'])),
      spelled_of_operand ?_ ?_⟩
    · have some : (args.map Tree.sketch).isEmpty = false := by simpa using empty
      rw [whole, callText.withArguments, some, renderedAll]
      simp [Text.ofChars, Text.ofString, pure, Except.pure, bind, Except.bind]
    · rw [withoutLines_callOn]
      exact readsAsOperand_send_arguments reads chars readsAll nonempty

theorem exists_spelled_element (on : Spelled isUpper receiver text)
    (present : receiver.isNilAtom = false)
    (each : ∀ u ∈ args, ∃ text, Spelled isUpper u text) :
    ∃ text, Spelled isUpper (.callOn line argsLine receiver "[]" args) text := by
  obtain ⟨inner, rendered, reads⟩ := on.exists_operand
  obtain ⟨texts, renderedAll, readsAll⟩ := exists_list_of_spelled each
  refine ⟨inner ++ '[' :: ([',', ' '].intercalate texts ++ [']']), spelled_of_operand ?_ ?_⟩
  · rw [render_callOn, callText, filter_present present]
    simp only [List.length_map, CallStyle.ofMethod_element, rendered, renderedAll]
    simp [Text.ofChars, Text.ofString, pure, Except.pure, bind, Except.bind]
  · rw [withoutLines_callOn]
    exact readsAsOperand_element reads readsAll

/-- The operators are words of their own, and not those of the logical operations. -/
theorem binaryOperators_plain : ∀ op ∈ binaryOperators, ' ' ∉ op.toList ∧
    op.toList ≠ ['&', '&'] ∧ op.toList ≠ ['|', '|'] := by decide

theorem exists_spelled_between {right : Tree} {rightText : List Char}
    (on : Spelled isUpper receiver text) (present : receiver.isNilAtom = false)
    (mem : method ∈ binaryOperators) (argument : Spelled isUpper right rightText) :
    ∃ text, Spelled isUpper (.callOn line argsLine receiver method [right]) text := by
  obtain ⟨oneWord, noAnd, noOr⟩ := binaryOperators_plain method mem
  refine exists_spelled_operation on argument oneWord ?_ ?_ ?_
  · rw [render_callOn, callText, filter_present present]
    simp only [List.length_map, List.length_singleton, CallStyle.ofMethod_operator mem]
    simp [Text.ofChars, Text.ofString, Text.join]
  · rw [withoutLines_callOn, operation, if_neg noAnd, if_neg noOr]
    rfl
  · rw [isOperation_callOn present, isBinaryOperator_of_mem mem]
    rfl

end Calls

/-- Every core expression has a text that is read back. -/
theorem exists_spelled_of_isCore (h : t.IsCore isUpper) : ∃ text, Spelled isUpper t text := by
  induction h with
  | lvar is lower =>
    exact ⟨_, spelled_name is (fun c first => by rw [lower c first]; rfl) _⟩
  | const is upper =>
    exact ⟨_, spelled_name is (fun c first => by rw [upper c first]; rfl) _⟩
  | ivar is => exact ⟨_, spelled_ivar is _⟩
  | lit nonempty are => exact ⟨_, spelled_lit nonempty are _⟩
  | str => exact ⟨_, spelled_str _ _⟩
  | and _ _ first second =>
    obtain ⟨leftText, first⟩ := first
    obtain ⟨rightText, second⟩ := second
    refine @exists_spelled_operation _ _ _ _ _ _ ['&', '&'] first second (by decide) ?_ rfl rfl
    rfl
  | or _ _ first second =>
    obtain ⟨leftText, first⟩ := first
    obtain ⟨rightText, second⟩ := second
    refine @exists_spelled_operation _ _ _ _ _ _ ['|', '|'] first second (by decide) ?_ rfl rfl
    rfl
  | @call line argsLine receiver method args core all is on each =>
    obtain ⟨text, on⟩ := on
    have present := core.isNilAtom_eq_false
    -- behind a point, in brackets, or between its operands
    rcases is with name | rfl | ⟨mem, one⟩
    · exact exists_spelled_send on present name each
    · exact exists_spelled_element on present each
    · obtain ⟨right, rfl⟩ := List.length_eq_one_iff.1 one
      obtain ⟨rightText, argument⟩ := each right (List.mem_singleton_self right)
      exact exists_spelled_between on present mem argument

end

/-- The text of an expression is read as the expression without its lines. -/
theorem Spelled.read_eq {isUpper : Char → Bool} {t : Tree} {text : List Char}
    (h : Spelled isUpper t text) : Signature.read isUpper text = some t.withoutLines := by
  have ended : Stops [] := fun _ first => nomatch first
  have whole := h.readsAs [] [] (fun _ => rfl) ended
  rw [List.append_nil] at whole
  exact whole

/-- Core expressions have a text, and those with the same text are equal up to lines, whichever
characters count as upper case. -/
theorem signature_determines_expression (isUpper : Char → Bool) {a b : Tree}
    (core : a.IsCore isUpper) (core' : b.IsCore isUpper) :
    (∃ text, a.render = .ok text) ∧ (a.render = b.render → a.withoutLines = b.withoutLines) := by
  obtain ⟨text, spelled⟩ := exists_spelled_of_isCore core
  obtain ⟨text', spelled'⟩ := exists_spelled_of_isCore core'
  refine ⟨⟨_, spelled.rendered⟩, fun same => ?_⟩
  have sameText : text = text' := by
    rw [spelled.rendered, spelled'.rendered] at same
    exact Text.ofChars_injective (Except.ok.inj same)
  -- one text has one reading
  have read := spelled.read_eq
  rw [sameText, spelled'.read_eq] at read
  exact (Option.some.inj read).symm

/-- The expression `(a + B.c?("x", 1))[] && @d` with its nodes on a line. -/
def bracketExpression (line : Int) : Tree :=
  .known .and line
    [.callOn line line
      (.callOn line (line + 1) (.known .lvar line [.atom (.sym "a")]) "+"
        [.callOn line line (.known .const line [.atom (.sym "B")]) "c?"
          [.known .str line [.atom (.str "x")], .known .lit line [.atom (.int "1")]]])
      "[]" [],
      .known .ivar line [.atom (.sym "@d")]]

theorem bracketExpression_determined :
    (bracketExpression 1).render = (bracketExpression 2).render ∧
      (bracketExpression 1).withoutLines = (bracketExpression 2).withoutLines := by
  have core : ∀ line, (bracketExpression line).IsCore Char.isUpper := by
    intro line
    have letter : ∀ c, c.isDigit = false → isNameChar c → IsIdentifier [c] := by
      intro c noDigit name
      refine ⟨List.cons_ne_nil _ _, ?_, List.forall_mem_singleton.2 name⟩
      intro d first
      cases first
      exact noDigit
    have a : (Tree.known .lvar line [.atom (.sym "a")]).IsCore Char.isUpper :=
      .lvar (letter 'a' rfl rfl) fun c first => by cases first; rfl
    have b : (Tree.known .const line [.atom (.sym "B")]).IsCore Char.isUpper :=
      .const (letter 'B' rfl rfl) fun c first => by cases first; rfl
    have c : IsMethodName "c?".toList := ⟨['c'], letter 'c' rfl rfl, Or.inr (Or.inl rfl)⟩
    have one : (Tree.known .lit line [.atom (.int "1")]).IsCore Char.isUpper :=
      .lit (by decide) (List.forall_mem_singleton.2 rfl)
    have d : IsIdentifier "d".toList := letter 'd' rfl rfl
    refine .and (.call (.call a ?_ (Or.inr (Or.inr ⟨by decide, rfl⟩))) ?_ (Or.inr (Or.inl rfl)))
      (.ivar d)
    · refine List.forall_mem_singleton.2 (.call b ?_ (Or.inl c))
      exact List.forall_mem_cons.2 ⟨.str, List.forall_mem_singleton.2 one⟩
    · exact List.forall_mem_nil _
  have same : (bracketExpression 1).render = (bracketExpression 2).render := by rfl
  exact ⟨same, (signature_determines_expression Char.isUpper (core 1) (core 2)).2 same⟩

end CodeSmell
