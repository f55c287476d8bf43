import CodeSmell.Proofs.SignatureTokens

/-!
# Reading tokens back

A machine over tokens reads expressions. It takes one token after the other and keeps what is open:
parentheses, arguments, and what is still in front of its operand. What stands behind a sign, an
operator or an assignment is joined with it as late as possible. A method binds to the word in front
of it, and an assignment to all that stands before its last method or brackets (`Grouping.settle`).

How far an expression is joined when its tokens are read depends on its form: in one piece
(`ReadsTight`), up to the signs in front of it (`ReadsOperand`), up to an operator (`ReadsSimple`),
or up to assignments (`ReadsWhole`). There is one lemma for each way to put an expression together.
-/

set_option autoImplicit false

namespace CodeSmell

open Signature

namespace Grouping

/-! ## The machine -/

/-- What is open around an expression. -/
inductive Context where
  | group
  /-- A sign in front of its operand. -/
  | sign (method : List Char)
  | right (left : Tree) (operator : List Char)
  /-- A writer in front of the value that it assigns. -/
  | value (receiver : Tree) (method : List Char) (args : List Tree)
  /-- A call, or an element if there is no method, with the arguments in front of the present one,
  latest first. -/
  | arguments (receiver : Tree) (method : Option (List Char)) (before : List Tree)

/-- Where the machine is: in front of an expression, or behind one. A method without arguments and
an element are kept in parts, for they may be what is written. -/
inductive Mode where
  | start
  | done (t : Tree)
  | sent (receiver : Tree) (method : List Char)
  | indexed (receiver : Tree) (args : List Tree)

namespace Mode

/-- The expression behind which the machine is. -/
def tree? : Mode → Option Tree
  | .start => none
  | .done t => some t
  | .sent receiver method => some (call receiver method [])
  | .indexed receiver args => some (call receiver ['[', ']'] args)

/-- The writer that an assignment makes of the method or element behind which the machine is. -/
def written? : Mode → Option (Tree × List Char × List Tree)
  | .sent receiver method => some (receiver, method ++ ['='], [])
  | .indexed receiver args => some (receiver, ['[', ']', '='], args)
  | .start | .done _ => none

/-- The machine behind the arguments of a call or an element. -/
def closed (receiver : Tree) (method : Option (List Char)) (args : List Tree) : Mode :=
  match method with
  | some method => .done (call receiver method args)
  | none => .indexed receiver args

end Mode

/-- The machine: what is open, innermost first, and where it is. -/
structure State where
  around : List Context
  mode : Mode

/-- An expression with the signs and operators in front of it. -/
def settle (t : Tree) : List Context → Tree × List Context
  | .sign method :: around => settle (call t method []) around
  | .right left operator :: around => settle (call left operator [t]) around
  | around => (t, around)

/-- An expression with all that is open in front of it, up to a parenthesis or a bracket. -/
def settleAll (t : Tree) : List Context → Tree × List Context
  | .sign method :: around => settleAll (call t method []) around
  | .right left operator :: around => settleAll (call left operator [t]) around
  | .value receiver method args :: around => settleAll (call receiver method (args ++ [t])) around
  | around => (t, around)

/-- The method that a sign stands for. -/
def signMethod (c : Char) : List Char := if c = '~' then ['~'] else [c, '@']

/-- The mark behind arguments. -/
def closer (method : Option (List Char)) : Char := if method.isSome then ')' else ']'

/-- Takes a closing mark. -/
def close (c : Char) : Tree × List Context → Option State
  | (t, .group :: around) => if c = ')' then some ⟨around, .done t⟩ else none
  | (t, .arguments receiver method before :: around) =>
    if c = closer method then some ⟨around, .closed receiver method (t :: before).reverse⟩ else none
  | _ => none

variable (isUpper : Char → Bool)

/-- Takes a token in front of an expression. -/
def stepStart (around : List Context) : Token → Option State
  | .word chars => some ⟨around, .done (ofWord isUpper chars)⟩
  | .mark c =>
    if c = '(' then some ⟨.group :: around, .start⟩
    else if c = ']' then
      match around with
      | .arguments receiver none [] :: around => some ⟨around, .indexed receiver []⟩
      | _ => none
    else some ⟨.sign (signMethod c) :: around, .start⟩
  | .method _ | .operator _ | .comma => none

/-- Takes a token behind an expression. -/
def stepBehind (around : List Context) (mode : Mode) (t : Tree) : Token → Option State
  | .word _ => none
  | .method chars => some ⟨around, .sent t chars⟩
  | .operator chars =>
    if chars = ['='] then
      mode.written?.map fun (receiver, method, args) =>
        let (receiver, around) := settle receiver around
        ⟨.value receiver method args :: around, .start⟩
    else
      let (left, around) := settle t around
      some ⟨.right left chars :: around, .start⟩
  | .mark c =>
    if c = '[' then some ⟨.arguments t none [] :: around, .start⟩
    else if c = '(' then
      match mode with
      | .sent receiver method => some ⟨.arguments receiver (some method) [] :: around, .start⟩
      | _ => none
    else close c (settleAll t around)
  | .comma =>
    match settleAll t around with
    | (t, .arguments receiver method before :: around) =>
      some ⟨.arguments receiver method (t :: before) :: around, .start⟩
    | _ => none

/-- Takes a token. -/
def step (s : State) (token : Token) : Option State :=
  match s.mode.tree? with
  | none => stepStart isUpper s.around token
  | some t => stepBehind s.around s.mode t token

/-- The expression that has been read when the tokens end. -/
def finish (s : State) : Option Tree := do
  match settleAll (← s.mode.tree?) s.around with
  | (t, []) => some t
  | _ => none

/-- What the machine answers tokens with. -/
def run (s : State) (tokens : List Token) : Option Tree :=
  (tokens.foldlM (step isUpper) s).bind finish

variable {isUpper} {s s' : State} {around inner : List Context} {ts us rest : List Token}
  {t e receiver left right : Tree} {mode : Mode} {token : Token}

theorem run_cons (stepped : step isUpper s token = some s') :
    run isUpper s (token :: rest) = run isUpper s' rest := by
  rw [run, List.foldlM_cons, stepped]
  rfl

theorem step_behind (is : mode.tree? = some t) :
    step isUpper ⟨around, mode⟩ token = stepBehind around mode t token := by
  rw [step, is]

/-- Nothing in front of an expression can be joined with it yet. -/
def Settled (around : List Context) : Prop := ∀ t, settle t around = (t, around)

/-- Joining everything joins signs and operators first. -/
theorem settleAll_eq (t : Tree) (around : List Context) :
    settleAll t around = settleAll (settle t around).1 (settle t around).2 := by
  induction around generalizing t with
  | nil => rfl
  | cons c around ih =>
    cases c with
    | sign method => exact ih _
    | right left operator => exact ih _
    | group | value | arguments => rfl

/-! ## How tokens are read

Each notion says where the machine is behind the tokens of an expression: what is open there makes
up the expression together with the last part of it that was read.
-/

variable (isUpper) in
/-- The tokens are read as an expression in one piece. -/
def ReadsTight (ts : List Token) (e : Tree) : Prop :=
  ∃ mode, mode.tree? = some e ∧
    ∀ around rest, run isUpper ⟨around, .start⟩ (ts ++ rest) = run isUpper ⟨around, mode⟩ rest

/-- What is open in front of a tree makes up an expression with it. -/
def Holds (inner : List Context) (t e : Tree) : Prop :=
  ∀ around, settle t (inner ++ around) = settle e around

variable (isUpper) in
/-- The tokens are read as an operand: signs in front of it may be open. -/
def ReadsOperand (ts : List Token) (e : Tree) : Prop :=
  ∃ inner mode t, mode.tree? = some t ∧ Holds inner t e ∧
    ∀ around rest,
      run isUpper ⟨around, .start⟩ (ts ++ rest) = run isUpper ⟨inner ++ around, mode⟩ rest

variable (isUpper) in
/-- The tokens are read as an expression that assigns nothing: an operator may be open too. -/
def ReadsSimple (ts : List Token) (e : Tree) : Prop :=
  ∃ inner mode t, mode.tree? = some t ∧ Holds inner t e ∧
    ∀ around rest, Settled around →
      run isUpper ⟨around, .start⟩ (ts ++ rest) = run isUpper ⟨inner ++ around, mode⟩ rest

variable (isUpper) in
/-- The tokens are read as any expression: assignments may be open too. -/
def ReadsWhole (ts : List Token) (e : Tree) : Prop :=
  ∃ inner mode t, mode.tree? = some t ∧
    (∀ around, settleAll t (inner ++ around) = settleAll e around) ∧
    ∀ around rest, Settled around →
      run isUpper ⟨around, .start⟩ (ts ++ rest) = run isUpper ⟨inner ++ around, mode⟩ rest

theorem ReadsTight.operand (h : ReadsTight isUpper ts e) : ReadsOperand isUpper ts e := by
  obtain ⟨mode, is, reads⟩ := h
  exact ⟨[], mode, e, is, fun _ => rfl, reads⟩

theorem ReadsOperand.simple (h : ReadsOperand isUpper ts e) : ReadsSimple isUpper ts e := by
  obtain ⟨inner, mode, t, is, holds, reads⟩ := h
  exact ⟨inner, mode, t, is, holds, fun around rest _ => reads around rest⟩

theorem ReadsSimple.whole (h : ReadsSimple isUpper ts e) : ReadsWhole isUpper ts e := by
  obtain ⟨inner, mode, t, is, holds, reads⟩ := h
  refine ⟨inner, mode, t, is, fun around => ?_, reads⟩
  rw [settleAll_eq, holds, ← settleAll_eq]

/-- What is read as an expression is the answer when the tokens end behind it. -/
theorem ReadsWhole.run_eq (h : ReadsWhole isUpper ts e) : run isUpper ⟨[], .start⟩ ts = some e := by
  obtain ⟨inner, mode, t, is, joined, reads⟩ := h
  have ended := reads [] [] fun _ => rfl
  have last : run isUpper ⟨inner ++ [], mode⟩ [] = finish ⟨inner ++ [], mode⟩ := rfl
  rw [List.append_nil] at ended
  rw [ended, last, finish, is]
  simp only [Option.bind_eq_bind, Option.bind_some, joined]
  rfl

/-! ### Words, groups and signs -/

theorem readsTight_word (chars : List Char) :
    ReadsTight isUpper [.word chars] (ofWord isUpper chars) :=
  ⟨.done (ofWord isUpper chars), rfl, fun _ _ => run_cons rfl⟩

theorem readsTight_group (h : ReadsSimple isUpper ts e) : ReadsTight isUpper (grouped ts) e := by
  obtain ⟨inner, mode, t, is, settled, reads⟩ := h.whole
  refine ⟨.done e, rfl, fun around rest => ?_⟩
  have opening : step isUpper ⟨around, .start⟩ (.mark '(') = some ⟨.group :: around, .start⟩ := rfl
  have closing : step isUpper ⟨inner ++ .group :: around, mode⟩ (.mark ')')
      = some ⟨around, .done e⟩ := by
    rw [step_behind is]
    simp only [stepBehind, settled]
    rfl
  rw [grouped, List.cons_append, run_cons opening, List.append_assoc, List.singleton_append,
    reads _ _ (fun _ => rfl), run_cons closing]

theorem readsOperand_sign {c : Char} (known : c ∈ signs) (h : ReadsOperand isUpper ts e) :
    ReadsOperand isUpper (.mark c :: ts) (call e (signMethod c) []) := by
  obtain ⟨inner, mode, t, is, holds, reads⟩ := h
  have opening (around : List Context) : step isUpper ⟨around, .start⟩ (.mark c)
      = some ⟨.sign (signMethod c) :: around, .start⟩ := by
    simp only [signs, List.mem_cons, List.not_mem_nil, or_false] at known
    rcases known with rfl | rfl | rfl <;> rfl
  refine ⟨inner ++ [.sign (signMethod c)], mode, t, is, fun around => ?_, fun around rest => ?_⟩
  · rw [List.append_assoc, holds]
    rfl
  · rw [List.cons_append, run_cons (opening around), reads, List.append_assoc]
    rfl

/-! ### Operations -/

theorem readsSimple_operation {operator : List Char} (first : ReadsOperand isUpper ts left)
    (second : ReadsOperand isUpper us right) (noWriter : operator ≠ ['=']) :
    ReadsSimple isUpper (ts ++ .operator operator :: us) (call left operator [right]) := by
  obtain ⟨inner, mode, t, is, holds, reads⟩ := first
  obtain ⟨inner', mode', t', is', holds', reads'⟩ := second
  refine ⟨inner' ++ [.right left operator], mode', t', is', fun around => ?_,
    fun around rest settled => ?_⟩
  · rw [List.append_assoc, holds']
    rfl
  · have joined : settle t (inner ++ around) = (left, around) := (holds around).trans (settled left)
    have operated : step isUpper ⟨inner ++ around, mode⟩ (.operator operator)
        = some ⟨.right left operator :: around, .start⟩ := by
      rw [step_behind is]
      simp only [stepBehind, if_neg noWriter, joined]
    rw [List.append_assoc, reads, List.cons_append, run_cons operated, reads', List.append_assoc]
    rfl

/-! ### Arguments -/

/-- Behind the last argument the call or the element is complete. -/
theorem run_arguments {method : Option (List Char)} {tss : List (List Token)} {args : List Tree}
    (each : List.Forall₂ (ReadsWhole isUpper) tss args) (nonempty : args ≠ [])
    (before : List Tree) :
    run isUpper ⟨.arguments receiver method before :: around, .start⟩
        (listed tss ++ .mark (closer method) :: rest)
      = run isUpper ⟨around, .closed receiver method (before.reverse ++ args)⟩ rest := by
  -- each argument moves to those before the next one
  induction each generalizing before with
  | nil => exact absurd rfl nonempty
  | @cons ts arg tss args first more ih =>
    obtain ⟨inner, mode, t, is, joined, reads⟩ := first
    have joined : settleAll t (inner ++ .arguments receiver method before :: around)
        = (arg, .arguments receiver method before :: around) := joined _
    cases more with
    | nil =>
      have closing : step isUpper ⟨inner ++ .arguments receiver method before :: around, mode⟩
          (.mark (closer method))
            = some ⟨around, .closed receiver method (before.reverse ++ [arg])⟩ := by
        have other : closer method ≠ '[' ∧ closer method ≠ '(' := by
          cases method <;> simp [closer]
        rw [step_behind is]
        simp only [stepBehind, if_neg other.1, if_neg other.2, joined, close, if_true,
          List.reverse_cons]
      rw [listed, List.intercalate_singleton, reads _ _ (fun _ => rfl), run_cons closing]
    | @cons ts' arg' tss args second more =>
      have comma : step isUpper ⟨inner ++ .arguments receiver method before :: around, mode⟩ .comma
          = some ⟨.arguments receiver method (arg :: before) :: around, .start⟩ := by
        rw [step_behind is]
        simp only [stepBehind, joined]
      rw [listed, List.intercalate_cons_cons, List.append_assoc, List.append_assoc,
        reads _ _ (fun _ => rfl), List.singleton_append, run_cons comma]
      refine (ih (List.cons_ne_nil _ _) (arg :: before)).trans ?_
      rw [List.reverse_cons, List.append_assoc]
      rfl

/-! ### Calls -/

theorem run_method (is : mode.tree? = some t) (method : List Char) :
    run isUpper ⟨around, mode⟩ (.method method :: rest)
      = run isUpper ⟨around, .sent t method⟩ rest :=
  run_cons (step_behind is)

theorem run_element {tss : List (List Token)} {args : List Tree} (is : mode.tree? = some t)
    (each : List.Forall₂ (ReadsWhole isUpper) tss args) :
    run isUpper ⟨around, mode⟩ (.mark '[' :: (listed tss ++ .mark ']' :: rest))
      = run isUpper ⟨around, .indexed t args⟩ rest := by
  have opening : step isUpper ⟨around, mode⟩ (.mark '[')
      = some ⟨.arguments t none [] :: around, .start⟩ := step_behind is
  rw [run_cons opening]
  by_cases empty : args = []
  · -- the bracket closes where an argument could start
    subst empty
    cases each
    exact run_cons rfl
  · exact run_arguments each empty []

theorem readsTight_send (h : ReadsTight isUpper ts receiver) (method : List Char) :
    ReadsTight isUpper (ts ++ [.method method]) (call receiver method []) := by
  obtain ⟨mode, is, reads⟩ := h
  refine ⟨.sent receiver method, rfl, fun around rest => ?_⟩
  rw [List.append_assoc, reads, List.singleton_append, run_method is]

theorem readsTight_send_arguments {tss : List (List Token)} {args : List Tree}
    (h : ReadsTight isUpper ts receiver) (method : List Char)
    (each : List.Forall₂ (ReadsWhole isUpper) tss args) (nonempty : args ≠ []) :
    ReadsTight isUpper (ts ++ .method method :: grouped (listed tss))
      (call receiver method args) := by
  obtain ⟨mode, is, reads⟩ := h
  refine ⟨.done (call receiver method args), rfl, fun around rest => ?_⟩
  have opening : step isUpper ⟨around, .sent receiver method⟩ (.mark '(')
      = some ⟨.arguments receiver (some method) [] :: around, .start⟩ := rfl
  rw [List.append_assoc, reads, List.cons_append, run_method is, grouped, List.cons_append,
    run_cons opening, List.append_assoc]
  exact run_arguments each nonempty []

theorem readsTight_element {tss : List (List Token)} {args : List Tree}
    (h : ReadsTight isUpper ts receiver) (each : List.Forall₂ (ReadsWhole isUpper) tss args) :
    ReadsTight isUpper (ts ++ .mark '[' :: (listed tss ++ [.mark ']']))
      (call receiver ['[', ']'] args) := by
  obtain ⟨mode, is, reads⟩ := h
  refine ⟨.indexed receiver args, rfl, fun around rest => ?_⟩
  rw [List.append_assoc, reads, List.cons_append, List.append_assoc]
  exact run_element is each

/-! ### Writers -/

/-- The machine is behind something that can be written. -/
theorem Mode.tree?_of_written? {method : List Char} {args : List Tree}
    (written : mode.written? = some (receiver, method, args)) : ∃ t, mode.tree? = some t := by
  cases mode with
  | start | done t => cases written
  | sent receiver method => exact ⟨_, rfl⟩
  | indexed receiver args => exact ⟨_, rfl⟩

/-- What is written belongs to all of the receiver, also if only the end of the receiver is read
when its method or brackets come. -/
theorem readsWhole_assignment {target : List Token} {method : List Char} {args : List Tree}
    {value : Tree} {ended : Tree → Mode} (first : ReadsSimple isUpper ts receiver)
    (written : ∀ t, (ended t).written? = some (t, method, args))
    (reaches : ∀ {around rest mode t}, mode.tree? = some t →
      run isUpper ⟨around, mode⟩ (target ++ rest) = run isUpper ⟨around, ended t⟩ rest)
    (second : ReadsWhole isUpper us value) :
    ReadsWhole isUpper (ts ++ (target ++ .operator ['='] :: us))
      (call receiver method (args ++ [value])) := by
  obtain ⟨inner, mode, t, is, holds, reads⟩ := first
  obtain ⟨inner', mode', t', is', joined, reads'⟩ := second
  refine ⟨inner' ++ [.value receiver method args], mode', t', is', fun around => ?_,
    fun around rest settled => ?_⟩
  · rw [List.append_assoc, joined]
    rfl
  · have whole : settle t (inner ++ around) = (receiver, around) :=
      (holds around).trans (settled receiver)
    obtain ⟨u, behind⟩ := Mode.tree?_of_written? (written t)
    have assigned : step isUpper ⟨inner ++ around, ended t⟩ (.operator ['='])
        = some ⟨.value receiver method args :: around, .start⟩ := by
      rw [step_behind behind]
      simp only [stepBehind, if_true, written, Option.map_some, whole]
    rw [List.append_assoc, reads _ _ settled, List.append_assoc, reaches is, List.cons_append,
      run_cons assigned, reads' _ _ (fun _ => rfl), List.append_assoc]
    rfl

theorem readsWhole_writer {value : Tree} (first : ReadsSimple isUpper ts receiver)
    (attr : List Char) (second : ReadsWhole isUpper us value) :
    ReadsWhole isUpper (ts ++ .method attr :: .operator ['='] :: us)
      (call receiver (attr ++ ['=']) [value]) := by
  have whole : ReadsWhole isUpper (ts ++ ([.method attr] ++ .operator ['='] :: us))
      (call receiver (attr ++ ['=']) ([] ++ [value])) :=
    readsWhole_assignment first (fun _ => rfl) (fun is => run_method is attr) second
  exact whole

theorem readsWhole_elementWriter {tss : List (List Token)} {args : List Tree} {value : Tree}
    (first : ReadsSimple isUpper ts receiver) (each : List.Forall₂ (ReadsWhole isUpper) tss args)
    (second : ReadsWhole isUpper us value) :
    ReadsWhole isUpper (ts ++ .mark '[' :: (listed tss ++ .mark ']' :: .operator ['='] :: us))
      (call receiver ['[', ']', '='] (args ++ [value])) := by
  have reaches {around : List Context} {rest : List Token} {mode : Mode} {t : Tree}
      (is : mode.tree? = some t) :
      run isUpper ⟨around, mode⟩ ((.mark '[' :: (listed tss ++ [.mark ']'])) ++ rest)
        = run isUpper ⟨around, .indexed t args⟩ rest := by
    rw [List.cons_append, List.append_assoc]
    exact run_element is each
  have whole := readsWhole_assignment first (fun _ => rfl) reaches second
  rw [List.cons_append, List.append_assoc] at whole
  exact whole

end Grouping

end CodeSmell
