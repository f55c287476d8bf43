import CodeSmell.Proofs.Quotation
import CodeSmell.Tree.Basic
import Mathlib.Data.List.Forall2

/-!
# Reading signatures

The text of an expression is read back by a machine that takes one character at a time. It keeps the
expression finished last and what is open around it: parentheses, the left side of an operator, or a
call whose arguments are being read. The trees it builds have no lines.

A text reads as an expression if behind it the machine goes on as if it had just finished that
expression (`Signature.ReadsAsOperand`, `Signature.ReadsAs`). The lemmas of this module say so of
every way to put an expression together.
-/

set_option autoImplicit false

namespace CodeSmell

/-- A character of a name. All characters beyond ASCII count as letters. -/
def isNameChar (c : Char) : Bool := c.isAlphanum || c == '_' || 0x80 ≤ c.toNat

/-- A character of the name of a method, which may end in a mark. -/
def isMethodChar (c : Char) : Bool := isNameChar c || c == '?' || c == '!'

/-- The slot for arguments, which is there only if there are any. -/
def argumentSlot (line : Int) (args : List Tree) : List Tree :=
  if args.isEmpty then [] else [.known .arglist line args]

/-- A call with a receiver. -/
def Tree.callOn (line argsLine : Int) (receiver : Tree) (method : String) (args : List Tree) :
    Tree :=
  .known .call line (receiver :: .atom (.sym method) :: argumentSlot argsLine args)

namespace Signature

/-- A call without lines. -/
def call (receiver : Tree) (method : List Char) (args : List Tree) : Tree :=
  .callOn 0 0 receiver (String.ofList method) args

/-- Two operands around an operator. -/
def operation (left : Tree) (operator : List Char) (right : Tree) : Tree :=
  if operator = ['&', '&'] then .known .and 0 [left, right]
  else if operator = ['|', '|'] then .known .or 0 [left, right]
  else call left operator [right]

/-- The variable, constant or number that a word denotes. Which characters are in upper case is left
open. -/
def ofWord (isUpper : Char → Bool) (word : List Char) : Tree :=
  let first := word.headD ' '
  if first = '@' then .known .ivar 0 [.atom (.sym (String.ofList word))]
  else if first.isDigit then .known .lit 0 [.atom (.int (String.ofList word))]
  else if isUpper first then .known .const 0 [.atom (.sym (String.ofList word))]
  else .known .lvar 0 [.atom (.sym (String.ofList word))]

/-- What is open around an expression. -/
inductive Context where
  | group
  | right (left : Tree) (operator : List Char)
  /-- A call with the arguments in front of the present one, latest first. -/
  | arguments (receiver : Tree) (method : List Char) (before : List Tree)

/-- What the machine is reading. Characters that were taken are kept latest first. -/
inductive Mode where
  | start
  | word (taken : List Char)
  | string (taken : List Char) (escaped : Bool)
  | done (t : Tree)
  | method (receiver : Tree) (taken : List Char)
  | operator (left : Tree) (taken : List Char)
  | comma

/-- The machine: what is open, innermost first, and what is being read. -/
structure State where
  around : List Context
  mode : Mode

/-- An expression that nothing more belongs to, joined with the left side it stands behind. -/
def settle (t : Tree) : List Context → Tree × List Context
  | .right left operator :: around => (operation left operator t, around)
  | around => (t, around)

/-- Takes the first character of an expression. -/
def stepStart (around : List Context) (c : Char) : Option State :=
  if c = '(' then some ⟨.group :: around, .start⟩
  else if c = '"' then some ⟨around, .string [] false⟩
  else if c = ']' then
    match around with
    | .arguments receiver method [] :: around => some ⟨around, .done (call receiver method [])⟩
    | _ => none
  else some ⟨around, .word [c]⟩

/-- Takes the character behind an expression. -/
def stepDone (around : List Context) (t : Tree) (c : Char) : Option State :=
  if c = '.' then some ⟨around, .method t []⟩
  else if c = '[' then some ⟨.arguments t ['[', ']'] [] :: around, .start⟩
  else if c = ' ' then some ⟨around, .operator t []⟩
  else match settle t around with
    | (t, .group :: around) => if c = ')' then some ⟨around, .done t⟩ else none
    | (t, .arguments receiver method before :: around) =>
      if c = ',' then some ⟨.arguments receiver method (t :: before) :: around, .comma⟩
      else if c = ')' ∨ c = ']' then
        some ⟨around, .done (call receiver method (t :: before).reverse)⟩
      else none
    | _ => none

variable (isUpper : Char → Bool)

/-- Takes a character. -/
def step (s : State) (c : Char) : Option State :=
  match s.mode with
  | .start => stepStart s.around c
  | .word taken =>
    if isNameChar c then some ⟨s.around, .word (c :: taken)⟩
    else stepDone s.around (ofWord isUpper taken.reverse) c
  | .string taken escaped =>
    if escaped then some ⟨s.around, .string (c :: taken) false⟩
    else if c = '"' then
      (Quoted.decode taken.reverse).map fun value =>
        ⟨s.around, .done (.known .str 0 [.atom (.str value)])⟩
    else some ⟨s.around, .string (c :: taken) (c == '\\')⟩
  | .done t => stepDone s.around t c
  | .method receiver taken =>
    if isMethodChar c then some ⟨s.around, .method receiver (c :: taken)⟩
    else if c = '(' then some ⟨.arguments receiver taken.reverse [] :: s.around, .start⟩
    else stepDone s.around (call receiver taken.reverse []) c
  | .operator left taken =>
    if c = ' ' then some ⟨.right left taken.reverse :: s.around, .start⟩
    else some ⟨s.around, .operator left (c :: taken)⟩
  | .comma => if c = ' ' then some ⟨s.around, .start⟩ else none

/-- The expression that has been read when the text ends. -/
def Mode.finished? : Mode → Option Tree
  | .word taken => some (ofWord isUpper taken.reverse)
  | .done t => some t
  | .method receiver taken => some (call receiver taken.reverse [])
  | _ => none

/-- Ends the text. -/
def finish (s : State) : Option Tree := do
  let t ← s.mode.finished? isUpper
  match settle t s.around with
  | (t, []) => some t
  | _ => none

/-- What the machine answers a text with. -/
def run (s : State) (text : List Char) : Option Tree :=
  (text.foldlM (step isUpper) s).bind (finish isUpper)

/-- Reads the text of an expression. -/
def read (text : List Char) : Option Tree := run isUpper ⟨[], .start⟩ text

variable {isUpper} {s s' : State} {around : List Context} {text rest taken : List Char} {c : Char}

theorem run_cons (stepped : step isUpper s c = some s') :
    run isUpper s (c :: rest) = run isUpper s' rest := by
  rw [run, List.foldlM_cons, stepped]
  rfl

/-- States that take the next character alike and end alike give the same answer. -/
theorem run_congr (next : ∀ c ∈ rest.head?, step isUpper s c = step isUpper s' c)
    (last : finish isUpper s = finish isUpper s') : run isUpper s rest = run isUpper s' rest := by
  cases rest with
  | nil => exact last
  | cons c rest => rw [run, run, List.foldlM_cons, List.foldlM_cons, next c rfl]

/-- The loop that collects the characters of a kind. -/
theorem run_collect {p : Char → Bool} {mode : List Char → Mode}
    (takes : ∀ taken c, p c →
      step isUpper ⟨around, mode taken⟩ c = some ⟨around, mode (c :: taken)⟩)
    (all : ∀ c ∈ text, p c) :
    run isUpper ⟨around, mode taken⟩ (text ++ rest) =
      run isUpper ⟨around, mode (text.reverse ++ taken)⟩ rest := by
  induction text generalizing taken with
  | nil => rfl
  | cons c text ih =>
    obtain ⟨here, later⟩ := List.forall_mem_cons.1 all
    rw [List.cons_append, run_cons (takes taken c here), ih later, List.reverse_cons,
      List.append_assoc]
    rfl

/-- Nothing in the text goes on with a name or adds arguments to it. -/
def Ends (rest : List Char) : Prop := ∀ c ∈ rest.head?, isMethodChar c = false ∧ c ≠ '('

/-- The text goes on behind a whole expression. -/
def Stops (rest : List Char) : Prop := ∀ c ∈ rest.head?, c ∈ [')', ']', ',']

theorem ends_of_stops (stops : Stops rest) : Ends rest := by
  intro c first
  have known := stops c first
  simp only [List.mem_cons, List.not_mem_nil, or_false] at known
  rcases known with rfl | rfl | rfl <;> decide

theorem ends_cons (noMethod : isMethodChar c = false) (noArguments : c ≠ '(') :
    Ends (c :: rest) := by
  intro d first
  cases first
  exact ⟨noMethod, noArguments⟩

theorem stops_cons (known : c ∈ [')', ']', ',']) : Stops (c :: rest) := by
  intro d first
  cases first
  exact known

/-- What is open is not the left side of an operator. -/
def Settled (around : List Context) : Prop := ∀ t, settle t around = (t, around)

variable (isUpper) in
/-- A text reads as an operand. -/
def ReadsAsOperand (text : List Char) (t : Tree) : Prop :=
  ∀ around rest, Ends rest →
    run isUpper ⟨around, .start⟩ (text ++ rest) = run isUpper ⟨around, .done t⟩ rest

variable (isUpper) in
/-- A text reads as an expression that is not itself an operand. -/
def ReadsAs (text : List Char) (t : Tree) : Prop :=
  ∀ around rest, Settled around → Stops rest →
    run isUpper ⟨around, .start⟩ (text ++ rest) = run isUpper ⟨around, .done t⟩ rest

variable {t receiver left right : Tree} {method operator leftText rightText : List Char}

theorem ReadsAsOperand.readsAs (h : ReadsAsOperand isUpper text t) : ReadsAs isUpper text t :=
  fun around rest _ stops => h around rest (ends_of_stops stops)

/-! ## Words and strings -/

theorem readsAsOperand_word (starts : c ∉ ['(', '"', ']']) (name : ∀ d ∈ text, isNameChar d) :
    ReadsAsOperand isUpper (c :: text) (ofWord isUpper (c :: text)) := by
  intro around rest ends
  simp only [List.mem_cons, List.not_mem_nil, or_false, not_or] at starts
  have first : step isUpper ⟨around, .start⟩ c = some ⟨around, .word [c]⟩ := by
    simp only [step, stepStart, if_neg starts.1, if_neg starts.2.1, if_neg starts.2.2]
  have takes : ∀ taken d, isNameChar d →
      step isUpper ⟨around, .word taken⟩ d = some ⟨around, .word (d :: taken)⟩ :=
    fun taken d is => if_pos is
  have whole : (text.reverse ++ [c]).reverse = c :: text := by simp
  rw [List.cons_append, run_cons first, run_collect takes name]
  refine run_congr (fun d next => ?_) (by simp only [finish, Mode.finished?, whole])
  obtain ⟨noMethod, -⟩ := ends d next
  simp only [isMethodChar, Bool.or_eq_false_iff] at noMethod
  simp only [step, noMethod, whole, Bool.false_eq_true, if_false]

theorem run_body (body : Quoted.Body '"' text) :
    run isUpper ⟨around, .string taken false⟩ (text ++ rest) =
      run isUpper ⟨around, .string (text.reverse ++ taken) false⟩ rest := by
  induction body generalizing taken with
  | nil => rfl
  | @plain c text noMark noEscape _ ih =>
    have next : step isUpper ⟨around, .string taken false⟩ c =
        some ⟨around, .string (c :: taken) false⟩ := by
      simp only [step, if_neg noMark, Bool.false_eq_true, if_false, beq_false_of_ne noEscape]
    rw [List.cons_append, run_cons next, ih, List.reverse_cons, List.append_assoc]
    rfl
  | @escaped c text _ ih =>
    have escape : step isUpper ⟨around, .string taken false⟩ '\\' =
        some ⟨around, .string ('\\' :: taken) true⟩ := rfl
    have hidden : step isUpper ⟨around, .string ('\\' :: taken) true⟩ c =
        some ⟨around, .string (c :: '\\' :: taken) false⟩ := rfl
    rw [List.cons_append, List.cons_append, run_cons escape, run_cons hidden, ih]
    simp

theorem readsAsOperand_string (value : Text) :
    ReadsAsOperand isUpper (Quoted.encode value) (.known .str 0 [.atom (.str value)]) := by
  intro around rest _
  have first : step isUpper ⟨around, .start⟩ '"' = some ⟨around, .string [] false⟩ := rfl
  have last : step isUpper ⟨around, .string (Quoted.encodeBody value).reverse false⟩ '"' =
      some ⟨around, .done (.known .str 0 [.atom (.str value)])⟩ := by
    simp [step, Quoted.decode_encodeBody]
  rw [Quoted.encode, List.cons_append, run_cons first, List.append_assoc,
    run_body (Quoted.body_encodeBody value), List.append_nil]
  exact run_cons last

/-! ## Operations -/

theorem readsAsOperand_group (h : ReadsAs isUpper text t) :
    ReadsAsOperand isUpper ('(' :: (text ++ [')'])) t := by
  intro around rest _
  have opening : step isUpper ⟨around, .start⟩ '(' = some ⟨.group :: around, .start⟩ := rfl
  have closing : step isUpper ⟨.group :: around, .done t⟩ ')' = some ⟨around, .done t⟩ := rfl
  rw [List.cons_append, run_cons opening, List.append_assoc, List.singleton_append,
    h _ _ (fun _ => rfl) (stops_cons (by decide)), run_cons closing]

/-- An operator and its right operand are joined with the left one once nothing more follows. -/
theorem run_operation (settled : Settled around) (stops : Stops rest) :
    run isUpper ⟨.right left operator :: around, .done right⟩ rest =
      run isUpper ⟨around, .done (operation left operator right)⟩ rest := by
  have joined : settle right (.right left operator :: around) =
      settle (operation left operator right) around := (settled _).symm
  -- the characters that stop an expression look only at what `settle` gives
  refine run_congr (fun c first => ?_) ?_
  · have known := stops c first
    simp only [List.mem_cons, List.not_mem_nil, or_false] at known
    have noMore : c ≠ '.' ∧ c ≠ '[' ∧ c ≠ ' ' := by rcases known with rfl | rfl | rfl <;> decide
    simp only [step, stepDone, if_neg noMore.1, if_neg noMore.2.1, if_neg noMore.2.2, joined]
  · simp only [finish, Mode.finished?, Option.bind_eq_bind, Option.bind_some, joined]

theorem readsAs_operation (first : ReadsAsOperand isUpper leftText left)
    (second : ReadsAsOperand isUpper rightText right) (oneWord : ' ' ∉ operator) :
    ReadsAs isUpper (leftText ++ ' ' :: (operator ++ ' ' :: rightText))
      (operation left operator right) := by
  intro around rest settled stops
  have takes : ∀ taken c, (c != ' ') →
      step isUpper ⟨around, .operator left taken⟩ c =
        some ⟨around, .operator left (c :: taken)⟩ :=
    fun taken c other => if_neg (bne_iff_ne.1 other)
  have inner : ∀ c ∈ operator, (c != ' ') := by
    intro c mem
    exact bne_iff_ne.2 fun same => oneWord (same ▸ mem)
  have opening : step isUpper ⟨around, .done left⟩ ' ' = some ⟨around, .operator left []⟩ := rfl
  have closing : step isUpper ⟨around, .operator left operator.reverse⟩ ' ' =
      some ⟨.right left operator :: around, .start⟩ := by
    simp [step]
  rw [List.append_assoc, List.cons_append, List.append_assoc, List.cons_append,
    first _ _ (ends_cons rfl (by decide)), run_cons opening, run_collect takes inner,
    List.append_nil, run_cons closing, second _ _ (ends_of_stops stops),
    run_operation settled stops]

/-! ## Calls -/

theorem run_method (name : ∀ c ∈ method, isMethodChar c) :
    run isUpper ⟨around, .done receiver⟩ ('.' :: (method ++ rest)) =
      run isUpper ⟨around, .method receiver method.reverse⟩ rest := by
  have point : step isUpper ⟨around, .done receiver⟩ '.' = some ⟨around, .method receiver []⟩ := rfl
  have takes : ∀ taken c, isMethodChar c →
      step isUpper ⟨around, .method receiver taken⟩ c =
        some ⟨around, .method receiver (c :: taken)⟩ :=
    fun taken c is => if_pos is
  rw [run_cons point, run_collect takes name, List.append_nil]

theorem readsAsOperand_send (h : ReadsAsOperand isUpper text receiver)
    (name : ∀ c ∈ method, isMethodChar c) :
    ReadsAsOperand isUpper (text ++ '.' :: method) (call receiver method []) := by
  intro around rest ends
  rw [List.append_assoc, List.cons_append, h _ _ (ends_cons rfl (by decide)), run_method name]
  refine run_congr (fun c first => ?_) ?_
  · obtain ⟨noMethod, noArguments⟩ := ends c first
    simp only [step, noMethod, Bool.false_eq_true, if_false, if_neg noArguments,
      List.reverse_reverse]
  · simp only [finish, Mode.finished?, List.reverse_reverse]

/-- The arguments of a call, up to what closes them. -/
theorem run_arguments {texts : List (List Char)} {args : List Tree} {closing : Char}
    (each : List.Forall₂ (ReadsAs isUpper) texts args) (nonempty : args ≠ [])
    (closes : closing ∈ [')', ']']) (before : List Tree) :
    run isUpper ⟨.arguments receiver method before :: around, .start⟩
        ([',', ' '].intercalate texts ++ closing :: rest) =
      run isUpper ⟨around, .done (call receiver method (before.reverse ++ args))⟩ rest := by
  -- each argument moves to those before the next one
  induction each generalizing before with
  | nil => exact absurd rfl nonempty
  | @cons text arg texts args first more ih =>
    cases more with
    | nil =>
      have closed : step isUpper ⟨.arguments receiver method before :: around, .done arg⟩ closing =
          some ⟨around, .done (call receiver method (before.reverse ++ [arg]))⟩ := by
        simp only [List.mem_cons, List.not_mem_nil, or_false] at closes
        rw [← List.reverse_cons]
        rcases closes with rfl | rfl <;> rfl
      have stops : Stops (closing :: rest) := stops_cons (List.mem_append_left [','] closes)
      rw [List.intercalate_singleton, first _ _ (fun _ => rfl) stops, run_cons closed]
    | @cons text' arg' texts args second more =>
      have comma : step isUpper ⟨.arguments receiver method before :: around, .done arg⟩ ',' =
          some ⟨.arguments receiver method (arg :: before) :: around, .comma⟩ := rfl
      have blank : step isUpper ⟨.arguments receiver method (arg :: before) :: around, .comma⟩ ' ' =
          some ⟨.arguments receiver method (arg :: before) :: around, .start⟩ := rfl
      rw [List.intercalate_cons_cons, List.append_assoc, List.append_assoc, List.cons_append,
        first _ _ (fun _ => rfl) (stops_cons (by decide)), run_cons comma, List.cons_append,
        run_cons blank, List.nil_append, ih (List.cons_ne_nil _ _), List.reverse_cons,
        List.append_assoc]
      rfl

theorem readsAsOperand_send_arguments {texts : List (List Char)} {args : List Tree}
    (h : ReadsAsOperand isUpper text receiver) (name : ∀ c ∈ method, isMethodChar c)
    (each : List.Forall₂ (ReadsAs isUpper) texts args) (nonempty : args ≠ []) :
    ReadsAsOperand isUpper
      (text ++ '.' :: (method ++ '(' :: ([',', ' '].intercalate texts ++ [')'])))
      (call receiver method args) := by
  intro around rest _
  have opening : step isUpper ⟨around, .method receiver method.reverse⟩ '(' =
      some ⟨.arguments receiver method.reverse.reverse [] :: around, .start⟩ := rfl
  rw [List.reverse_reverse] at opening
  rw [List.append_assoc, List.cons_append, h _ _ (ends_cons rfl (by decide)), List.append_assoc,
    run_method name, List.cons_append, run_cons opening, List.append_assoc, List.singleton_append,
    run_arguments each nonempty (by decide)]
  rfl

theorem readsAsOperand_element {texts : List (List Char)} {args : List Tree}
    (h : ReadsAsOperand isUpper text receiver)
    (each : List.Forall₂ (ReadsAs isUpper) texts args) :
    ReadsAsOperand isUpper (text ++ '[' :: ([',', ' '].intercalate texts ++ [']']))
      (call receiver ['[', ']'] args) := by
  intro around rest _
  have opening : step isUpper ⟨around, .done receiver⟩ '[' =
      some ⟨.arguments receiver ['[', ']'] [] :: around, .start⟩ := rfl
  rw [List.append_assoc, List.cons_append, h _ _ (ends_cons rfl (by decide)), run_cons opening,
    List.append_assoc, List.singleton_append]
  by_cases empty : args = []
  -- the closing bracket comes where an argument could start
  · subst empty
    cases each
    exact run_cons rfl
  · exact run_arguments each empty (by decide) []

end Signature

end CodeSmell
