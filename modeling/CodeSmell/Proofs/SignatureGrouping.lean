import CodeSmell.Proofs.InstanceVariables
import CodeSmell.Proofs.Lines
import CodeSmell.Proofs.MethodCalls
import CodeSmell.Proofs.TokenReader

/-!
# What signatures leave open

Signs and writers are not put in parentheses when something is called on them or when they are
operands. So `(-a).b` and `-(a.b)` have one text, and so have `(a.b = c).d` and `a.b = c.d`
(`render_send_on_sign`, `render_send_on_writer`). A text tells the words of an expression, but not
always how they belong together, and different calls can be counted as one.

Among expressions in which no writer is a receiver or an operand and nothing is called on a sign
(`Tree.WellGrouped`) the text does determine the expression up to lines, for its tokens are read
back (`Tree.IsExpression.readBack`). In a method that makes only such calls, those that are counted
as one are equal up to lines (`lines_of_mem_duplicateCalls`).
-/

set_option autoImplicit false

namespace CodeSmell

open Signature Grouping

/-! ## Calls that need no parentheses -/

/-- Whether a call of the style ends in a value that is assigned. -/
def CallStyle.assigns : CallStyle → Bool
  | .writer _ | .elementWriter => true
  | .between | .before _ | .element | .plain => false

/-- Whether a call of the style starts with a sign. -/
def CallStyle.isSign : CallStyle → Bool
  | .before _ => true
  | .between | .element | .elementWriter | .writer _ | .plain => false

namespace Tree

/-- How a call is written. Other trees have no such style. -/
def style? : Tree → Option CallStyle
  | .node (.known .call) _ cs => some (.ofMethod (nameAt cs 1) (argumentsAt cs 2).length)
  | _ => none

/-- Whether a tree assigns a value. -/
def isWriter (t : Tree) : Bool := t.style?.any CallStyle.assigns

/-- Whether a tree is a sign with its operand. -/
def isSigned (t : Tree) : Bool := t.style?.any CallStyle.isSign

end Tree

/-- Whether a call of the style shows where its receiver ends and which operands it has. -/
def CallStyle.delimits (style : CallStyle) (receiver : Tree) (args : List Tree) : Bool :=
  !receiver.isWriter && match style with
    | .plain | .element => !receiver.isSigned
    | .between => args.all fun u => !u.isWriter
    | .before _ | .elementWriter | .writer _ => true

namespace Tree

/-- Whether the text of a call shows where its receiver ends and which operands it has. -/
def isDelimited (t : Tree) : Bool :=
  match t.style?, t.children.head? with
  | some style, some receiver => style.delimits receiver (argumentsAt t.children 2)
  | _, _ => true

/-- Every call in the tree shows where its receiver ends and which operands it has. -/
def WellGrouped (t : Tree) : Prop := ∀ u, t.HasPart u → u.isDelimited

theorem wellGrouped_iff {t : Tree} :
    t.WellGrouped ↔ t.isDelimited ∧ ∀ u ∈ t.children, u.WellGrouped := by
  constructor
  · intro h
    exact ⟨h t .refl, fun u mem v part => h v (.head mem part)⟩
  · rintro ⟨here, below⟩ u part
    rcases Relation.ReflTransGen.cases_head part with rfl | ⟨v, mem, part⟩
    · exact here
    · exact below v mem u part

section Calls

variable {line argsLine : Int} {receiver : Tree} {method : String} {args : List Tree}

theorem argumentsAt_callOn : argumentsAt (callOn line argsLine receiver method args).children 2
    = args := by
  cases args <;> rfl

theorem style?_callOn : (callOn line argsLine receiver method args).style?
    = some (.ofMethod (Text.ofString method) args.length) := by
  have arguments := @argumentsAt_callOn line argsLine receiver method args
  rw [callOn, children] at arguments
  rw [callOn, style?, arguments]
  rfl

theorem wellGrouped_callOn : (callOn line argsLine receiver method args).WellGrouped ↔
    (CallStyle.ofMethod (Text.ofString method) args.length).delimits receiver args ∧
      receiver.WellGrouped ∧ ∀ u ∈ args, u.WellGrouped := by
  have here : (callOn line argsLine receiver method args).isDelimited
      = (CallStyle.ofMethod (Text.ofString method) args.length).delimits receiver args := by
    rw [isDelimited, style?_callOn, argumentsAt_callOn]
    rfl
  have name : (atom (.sym method)).WellGrouped := wellGrouped_iff.2 ⟨rfl, List.forall_mem_nil _⟩
  have slot : (∀ u ∈ argumentSlot argsLine args, u.WellGrouped) ↔ ∀ u ∈ args, u.WellGrouped := by
    cases args with
    | nil => exact Iff.rfl
    | cons u args =>
      refine List.forall_mem_singleton.trans (wellGrouped_iff.trans ?_)
      exact and_iff_right rfl
  rw [wellGrouped_iff, here, callOn, children, List.forall_mem_cons, List.forall_mem_cons, slot,
    and_iff_right name]

theorem isOperation_send (present : receiver.isNilAtom = false) (is : IsMethodName method.toList) :
    (callOn line argsLine receiver method args).isOperation = false := by
  rw [isOperation_callOn present, Text.ofString, isBinaryOperator_eq_false is, Bool.false_and]

theorem isOperation_sign (present : receiver.isNilAtom = false) :
    (callOn line argsLine receiver method []).isOperation = false := by
  rw [isOperation_callOn present]
  exact Bool.and_false _

theorem isOperation_writer {attr : List Char} (present : receiver.isNilAtom = false)
    (is : IsIdentifier attr) (eq : method.toList = attr ++ ['=']) :
    (callOn line argsLine receiver method args).isOperation = false := by
  rw [isOperation_callOn present, Text.ofString, eq, isBinaryOperator_writer is, Bool.false_and]

end Calls

/-! ## Reading expressions back -/

variable {isUpper : Char → Bool} {t : Tree}

/-- The tokens of a tree are read as the tree without its lines, and as far in one piece as the form
of the tree allows. -/
structure ReadBack (isUpper : Char → Bool) (t : Tree) : Prop where
  whole : ReadsWhole isUpper t.tokens t.withoutLines
  simple : t.isWriter = false → ReadsSimple isUpper t.tokens t.withoutLines
  operand : t.isWriter = false → ReadsOperand isUpper t.operandTokens t.withoutLines
  tight : t.isWriter = false → t.isSigned = false →
    ReadsTight isUpper t.operandTokens t.withoutLines

theorem operandTokens_of_not_isOperation (none : t.isOperation = false) :
    t.operandTokens = t.tokens := by
  rw [operandTokens, none]
  rfl

theorem readBack_of_tight (none : t.isOperation = false)
    (h : ReadsTight isUpper t.tokens t.withoutLines) : t.ReadBack isUpper := by
  have same := operandTokens_of_not_isOperation none
  exact ⟨h.operand.simple.whole, fun _ => h.operand.simple, fun _ => same ▸ h.operand,
    fun _ _ => same ▸ h⟩

theorem readBack_of_operand (none : t.isOperation = false) (signed : t.isSigned)
    (h : ReadsOperand isUpper t.tokens t.withoutLines) : t.ReadBack isUpper := by
  have same := operandTokens_of_not_isOperation none
  refine ⟨h.simple.whole, fun _ => h.simple, fun _ => same ▸ h, fun _ unsigned => ?_⟩
  rw [signed] at unsigned
  cases unsigned

theorem readBack_of_simple (is : t.isOperation)
    (h : ReadsSimple isUpper t.tokens t.withoutLines) : t.ReadBack isUpper := by
  have group : t.operandTokens = grouped t.tokens := by
    rw [operandTokens, is]
    rfl
  have tight : ReadsTight isUpper t.operandTokens t.withoutLines := group ▸ readsTight_group h
  exact ⟨h.whole, fun _ => h, fun _ => tight.operand, fun _ _ => tight⟩

theorem readBack_of_whole (writer : t.isWriter)
    (h : ReadsWhole isUpper t.tokens t.withoutLines) : t.ReadBack isUpper := by
  have never {p : Prop} (none : t.isWriter = false) : p := by
    rw [writer] at none
    cases none
  exact ⟨h, never, never, fun none _ => never none⟩

theorem readBack_word {word : List Char} (none : t.isOperation = false)
    (tokens : t.tokens = [.word word]) (is : ofWord isUpper word = t.withoutLines) :
    t.ReadBack isUpper := by
  apply readBack_of_tight none
  rw [tokens, ← is]
  exact readsTight_word word

section Calls

variable {line argsLine : Int} {receiver : Tree} {method : String} {args : List Tree}

theorem forall₂_readsWhole (each : ∀ u ∈ args, u.ReadBack isUpper) :
    List.Forall₂ (ReadsWhole isUpper) (args.map tokens) (args.map withoutLines) := by
  rw [List.forall₂_map_left_iff, List.forall₂_map_right_iff, List.forall₂_same]
  exact fun u mem => (each u mem).whole

theorem readBack_send (on : receiver.ReadBack isUpper) (present : receiver.isNilAtom = false)
    (is : IsMethodName method.toList) (each : ∀ u ∈ args, u.ReadBack isUpper)
    (noWriter : receiver.isWriter = false) (unsigned : receiver.isSigned = false) :
    (callOn line argsLine receiver method args).ReadBack isUpper := by
  apply readBack_of_tight (isOperation_send present is)
  rw [tokens_send is, withoutLines_callOn]
  have tight := on.tight noWriter unsigned
  cases args with
  | nil => exact readsTight_send tight method.toList
  | cons u args =>
    exact readsTight_send_arguments tight method.toList (forall₂_readsWhole each)
      (List.cons_ne_nil _ _)

theorem readBack_element (on : receiver.ReadBack isUpper) (present : receiver.isNilAtom = false)
    (each : ∀ u ∈ args, u.ReadBack isUpper) (noWriter : receiver.isWriter = false)
    (unsigned : receiver.isSigned = false) :
    (callOn line argsLine receiver "[]" args).ReadBack isUpper := by
  have noOperator : isBinaryOperator "[]" = false := by decide
  have none : (callOn line argsLine receiver "[]" args).isOperation = false := by
    rw [isOperation_callOn present, noOperator, Bool.false_and]
  apply readBack_of_tight none
  rw [tokens_element, withoutLines_callOn]
  exact readsTight_element (on.tight noWriter unsigned) (forall₂_readsWhole each)

theorem readBack_between {right : Tree} (on : receiver.ReadBack isUpper)
    (present : receiver.isNilAtom = false) (mem : method ∈ binaryOperators)
    (second : right.ReadBack isUpper) (noWriter : receiver.isWriter = false)
    (noWriter' : right.isWriter = false) :
    (callOn line argsLine receiver method [right]).ReadBack isUpper := by
  have is : (callOn line argsLine receiver method [right]).isOperation := by
    rw [isOperation_callOn present, isBinaryOperator_of_mem mem]
    rfl
  have noAssignment : ∀ op ∈ binaryOperators, op.toList ≠ ['='] := by decide
  apply readBack_of_simple is
  rw [tokens_between mem, withoutLines_callOn]
  exact readsSimple_operation (on.operand noWriter) (second.operand noWriter')
    (noAssignment method mem)

theorem readBack_sign (on : receiver.ReadBack isUpper) (present : receiver.isNilAtom = false)
    (mem : method ∈ ["-@", "+@", "~"]) (noWriter : receiver.isWriter = false) :
    (callOn line argsLine receiver method []).ReadBack isUpper := by
  have signed : (callOn line argsLine receiver method []).isSigned := by
    obtain ⟨c, rest, -, -, style⟩ := CallStyle.ofMethod_sign mem
    rw [isSigned, style?_callOn, List.length_nil, style]
    rfl
  have known : ∀ op ∈ ["-@", "+@", "~"],
      op.toList.headD ' ' ∈ Signature.signs ∧ signMethod (op.toList.headD ' ') = op.toList := by
    decide
  obtain ⟨sign, named⟩ := known method mem
  apply readBack_of_operand (isOperation_sign present) signed
  have reads := readsOperand_sign sign (on.operand noWriter)
  rw [named] at reads
  rw [tokens_sign mem, withoutLines_callOn]
  exact reads

theorem readBack_writer {value : Tree} {attr : List Char} (on : receiver.ReadBack isUpper)
    (is : IsIdentifier attr) (eq : method.toList = attr ++ ['='])
    (assigned : value.ReadBack isUpper) (noWriter : receiver.isWriter = false) :
    (callOn line argsLine receiver method [value]).ReadBack isUpper := by
  have writer : (callOn line argsLine receiver method [value]).isWriter := by
    rw [isWriter, style?_callOn, Text.ofString, eq, List.length_singleton,
      CallStyle.ofMethod_writer is]
    rfl
  apply readBack_of_whole writer
  rw [tokens_writer is eq, withoutLines_callOn, eq]
  exact readsWhole_writer (on.simple noWriter) attr assigned.whole

theorem readBack_elementWriter {value : Tree} (on : receiver.ReadBack isUpper)
    (each : ∀ u ∈ args, u.ReadBack isUpper) (assigned : value.ReadBack isUpper)
    (noWriter : receiver.isWriter = false) :
    (callOn line argsLine receiver "[]=" (args ++ [value])).ReadBack isUpper := by
  have writer : (callOn line argsLine receiver "[]=" (args ++ [value])).isWriter := by
    rw [isWriter, style?_callOn, CallStyle.ofMethod_elementWriter (by simp)]
    rfl
  apply readBack_of_whole writer
  rw [tokens_elementWriter, withoutLines_callOn, List.map_append]
  exact readsWhole_elementWriter (on.simple noWriter) (forall₂_readsWhole each) assigned.whole

end Calls

/-- Every well-grouped expression is read back. -/
theorem IsExpression.readBack (h : t.IsExpression isUpper) (plain : t.WellGrouped) :
    t.ReadBack isUpper := by
  induction h with
  | lvar is lower =>
    refine readBack_word rfl rfl (ofWord_name is fun c first => ?_)
    rw [lower c first]
    rfl
  | const is upper =>
    refine readBack_word rfl rfl (ofWord_name is fun c first => ?_)
    rw [upper c first]
    rfl
  | @ivar line name is => exact readBack_word rfl rfl (ofWord_ivar name)
  | lit nonempty are => exact readBack_word rfl rfl (ofWord_lit nonempty are)
  | @call line argsLine receiver method args inner all is on each =>
    have present := inner.isNilAtom_eq_false
    -- what the receiver and the operands must not be is what their notions of reading ask for
    obtain ⟨delimits, first, later⟩ := wellGrouped_callOn.1 plain
    have on := on first
    have each (u : Tree) (mem : u ∈ args) := each u mem (later u mem)
    obtain ⟨noWriter, style⟩ := Bool.and_eq_true_iff.1 delimits
    rw [Bool.not_eq_true'] at noWriter
    generalize count : args.length = n at is
    cases is with
    | name is =>
      rw [Text.ofString, CallStyle.ofMethod_name is, Bool.not_eq_true'] at style
      exact readBack_send on present is each noWriter style
    | operator mem =>
      obtain ⟨right, rfl⟩ := List.length_eq_one_iff.1 count
      rw [List.length_singleton, CallStyle.ofMethod_operator mem] at style
      have noWriter' : right.isWriter = false := by simpa using style
      exact readBack_between on present mem (each right List.mem_cons_self) noWriter noWriter'
    | sign mem =>
      obtain rfl := List.length_eq_zero_iff.1 count
      exact readBack_sign on present mem noWriter
    | element =>
      rw [CallStyle.ofMethod_element, Bool.not_eq_true'] at style
      exact readBack_element on present each noWriter style
    | writer is eq =>
      obtain ⟨value, rfl⟩ := List.length_eq_one_iff.1 count
      exact readBack_writer on is eq (each value List.mem_cons_self) noWriter
    | elementWriter some =>
      obtain ⟨before, value, rfl⟩ := exists_concat (count ▸ some)
      obtain ⟨earlier, last⟩ := List.forall_mem_append.1 each
      exact readBack_elementWriter on earlier (last value List.mem_cons_self) noWriter

/-! ## Same texts -/

theorem withoutLines_eq_mapLines (t : Tree) : t.withoutLines = t.mapLines fun _ => 0 := by
  induction t using below_induction with
  | step t ih =>
    cases t with
    | atom a => rfl
    | node tag line cs =>
      rw [withoutLines, withoutLinesAll_eq_map, mapLines_node]
      refine congrArg (node tag 0) (List.map_congr_left fun u mem => ?_)
      exact ih u (below_of_mem tag line mem)

theorem render_eq_of_withoutLines_eq {a b : Tree} (same : a.withoutLines = b.withoutLines) :
    a.render = b.render := by
  have texts := congrArg render same
  rw [withoutLines_eq_mapLines, withoutLines_eq_mapLines, render_mapLines, render_mapLines] at texts
  exact texts

/-- Two well-grouped expressions have the same text exactly if they are equal up to lines. -/
theorem IsExpression.render_eq_iff {a b : Tree} (is : a.IsExpression isUpper)
    (is' : b.IsExpression isUpper) (plain : a.WellGrouped) (plain' : b.WellGrouped) :
    a.render = b.render ↔ a.withoutLines = b.withoutLines := by
  refine ⟨fun same => ?_, render_eq_of_withoutLines_eq⟩
  have tokens := (render_eq_iff_tokens_eq is.writes is'.writes).1 same
  -- the same tokens have one reading
  have read := (is.readBack plain).whole.run_eq
  rw [tokens, (is'.readBack plain').whole.run_eq] at read
  exact (Option.some.inj read).symm

/-! ### Calls on signs and writers -/

section Calls

variable {receiver : Tree} {method : String} {args : List Tree}

/-- Calling a method on a sign reads like the sign in front of the call. -/
theorem render_send_on_sign {sign : String} (on : receiver.IsExpression isUpper)
    (mem : sign ∈ ["-@", "+@", "~"]) (is : IsMethodName method.toList)
    (each : ∀ u ∈ args, u.IsExpression isUpper) (line argsLine : Int) :
    (callOn line argsLine (callOn line argsLine receiver sign []) method args).render
      = (callOn line argsLine (callOn line argsLine receiver method args) sign []).render := by
  have present := on.isNilAtom_eq_false
  have signed : (callOn line argsLine receiver sign []).IsExpression isUpper :=
    .call on (List.forall_mem_nil _) (.sign mem)
  have sent : (callOn line argsLine receiver method args).IsExpression isUpper :=
    .call on each (.name is)
  have outer : (callOn line argsLine (callOn line argsLine receiver sign []) method
      args).IsExpression isUpper := .call signed each (.name is)
  have outer' : (callOn line argsLine (callOn line argsLine receiver method args) sign
      []).IsExpression isUpper := .call sent (List.forall_mem_nil _) (.sign mem)
  rw [render_eq_iff_tokens_eq outer.writes outer'.writes, tokens_send is, tokens_sign mem,
    operandTokens_of_not_isOperation (isOperation_sign present),
    operandTokens_of_not_isOperation (isOperation_send present is), tokens_sign mem,
    tokens_send is, List.cons_append]

/-- Calling a method on a writer reads like assigning what the method is called for. -/
theorem render_send_on_writer {writer : String} {attr : List Char} {value : Tree}
    (on : receiver.IsExpression isUpper) (named : IsIdentifier attr)
    (eq : writer.toList = attr ++ ['=']) (assigned : value.IsExpression isUpper)
    (simple : value.isOperation = false) (is : IsMethodName method.toList)
    (each : ∀ u ∈ args, u.IsExpression isUpper) (line argsLine : Int) :
    (callOn line argsLine (callOn line argsLine receiver writer [value]) method args).render
      = (callOn line argsLine receiver writer [callOn line argsLine value method args]).render := by
  have written : (callOn line argsLine receiver writer [value]).IsExpression isUpper :=
    .call on (List.forall_mem_singleton.2 assigned) (.writer named eq)
  have sent : (callOn line argsLine value method args).IsExpression isUpper :=
    .call assigned each (.name is)
  have outer : (callOn line argsLine (callOn line argsLine receiver writer [value]) method
      args).IsExpression isUpper := .call written each (.name is)
  have outer' : (callOn line argsLine receiver writer
      [callOn line argsLine value method args]).IsExpression isUpper :=
    .call on (List.forall_mem_singleton.2 sent) (.writer named eq)
  rw [render_eq_iff_tokens_eq outer.writes outer'.writes, tokens_send is, tokens_writer named eq,
    operandTokens_of_not_isOperation (isOperation_writer on.isNilAtom_eq_false named eq),
    tokens_writer named eq, tokens_send is, operandTokens_of_not_isOperation simple,
    List.append_assoc]
  rfl

end Calls

end Tree

/-! ## Repeated calls -/

/-- A call with the text that its tokens spell. -/
def CallSite.spelled (site : CallSite) : Call :=
  ⟨Text.ofChars (spell site.tree.tokens), site.method, site.tree.line⟩

theorem CallSite.call_eq {site : CallSite} (h : site.tree.Writes) :
    site.call = .ok site.spelled := by
  rw [CallSite.call, h.rendered]
  rfl

section Repeated

variable {isUpper : Char → Bool} {sites : List CallSite}

/-- The signatures of well-grouped expressions are the same exactly if the expressions are equal up
to lines. -/
theorem CallSite.signature_eq_iff {site other : CallSite} (is : site.tree.IsExpression isUpper)
    (is' : other.tree.IsExpression isUpper) (plain : site.tree.WellGrouped)
    (plain' : other.tree.WellGrouped) :
    site.spelled.signature = other.spelled.signature ↔
      site.tree.withoutLines = other.tree.withoutLines := by
  rw [← is.render_eq_iff is' plain plain', is.writes.rendered, is'.writes.rendered,
    Except.ok.injEq]
  rfl

open Classical in
/-- The calls among several that are equal up to lines to a given one. Making an object is never
counted. -/
noncomputable def CallSite.repetitions (sites : List CallSite) (site : CallSite) : List CallSite :=
  sites.filter fun other =>
    other.method ≠ "new" ∧ other.tree.withoutLines = site.tree.withoutLines

/-- Calls of well-grouped expressions are filed together exactly if they are equal up to lines. -/
theorem snd_of_mem_callGroups {f : Facts} (noted : sites.mapM CallSite.call = .ok f.calls)
    (are : ∀ site ∈ sites, site.tree.IsExpression isUpper)
    (plain : ∀ site ∈ sites, site.tree.WellGrouped) {g : Text × List Int} (mem : g ∈ f.callGroups) :
    ∃ site ∈ sites, g.2 = (site.repetitions sites).map fun other => other.tree.line := by
  have calls : f.calls = sites.map CallSite.spelled := by
    rw [mapM_eq_ok fun site mem => CallSite.call_eq (are site mem).writes] at noted
    exact (Except.ok.inj noted).symm
  rw [Facts.callGroups, Groups.collect_eq, calls, List.filter_map] at mem
  obtain ⟨signature, appears, rfl⟩ := List.mem_map.1 mem
  -- some call has the signature of the group
  rw [List.mem_eraseDups, List.map_map] at appears
  obtain ⟨site, kept, rfl⟩ := List.mem_map.1 appears
  have inside := (List.mem_filter.1 kept).1
  refine ⟨site, inside, ?_⟩
  rw [CallSite.repetitions, List.filter_map, List.map_map, List.filter_filter]
  refine congrArg (List.map _) (List.filter_congr fun other mem => ?_)
  have same := CallSite.signature_eq_iff (are other mem) (are site inside) (plain other mem)
    (plain site inside)
  simp only [Function.comp_apply, ← Bool.decide_and, decide_eq_decide]
  exact (and_congr_left' same).trans and_comm

/-- Each warning about repeated calls counts the calls that are equal up to lines to one of them. -/
theorem lines_of_mem_duplicateCalls {s : Scope} {o : SmellOptions}
    (noted : sites.mapM CallSite.call = .ok s.facts.calls)
    (are : ∀ site ∈ sites, site.tree.IsExpression isUpper)
    (plain : ∀ site ∈ sites, site.tree.WellGrouped) {w : Warning} (mem : w ∈ s.duplicateCalls o) :
    ∃ site ∈ sites, w.lines = some ((site.repetitions sites).map fun other => other.tree.line) := by
  obtain ⟨g, counted, rfl⟩ := List.mem_map.1 mem
  obtain ⟨mem, -⟩ := List.mem_filter.1 counted
  obtain ⟨site, inside, lines⟩ := snd_of_mem_callGroups noted are plain mem
  exact ⟨site, inside, congrArg some lines⟩

end Repeated

/-- Every expression of variables, constants, numbers and calls has a text, and expressions have the
same text exactly if they have the same tokens. Well-grouped ones have the same text exactly if they
are equal up to lines. So if a method makes only well-grouped calls, each warning about repeated
calls counts those that are equal up to lines to one of them. -/
theorem signature_determines_grouped_expression (isUpper : Char → Bool) :
    (∀ a b : Tree, a.IsExpression isUpper → b.IsExpression isUpper →
      (∃ text, a.render = .ok text) ∧ (a.render = b.render ↔ a.tokens = b.tokens) ∧
        (a.WellGrouped → b.WellGrouped →
          (a.render = b.render ↔ a.withoutLines = b.withoutLines))) ∧
    ∀ (t : Tree) (chains : List Chain) (root : Chain), t.examineScopes = .ok (chains, root) →
      ∀ (m : Tree) (body : List Tree), t.Reaches m → m.methodBody? = some body →
        (∀ site ∈ Tree.callSitesAll body,
          site.tree.IsExpression isUpper ∧ site.tree.WellGrouped) →
        ∀ (s : Scope) (outer : Chain), s :: outer ∈ chains → s.node = some m →
          ∀ (o : SmellOptions), ∀ w ∈ s.duplicateCalls o, ∃ site ∈ Tree.callSitesAll body,
            w.lines = some
              ((site.repetitions (Tree.callSitesAll body)).map fun other => other.tree.line) := by
  constructor
  · intro a b is is'
    refine ⟨⟨_, is.writes.rendered⟩, Tree.render_eq_iff_tokens_eq is.writes is'.writes, ?_⟩
    exact is.render_eq_iff is'
  · intro t chains root examined m body reaches is calls s outer completed node o w mem
    obtain ⟨-, sound, rfl⟩ := Tree.examineScopes_eq_ok examined
    obtain ⟨u, -, scope⟩ := Tree.exists_reaches_of_completed sound completed
    obtain rfl : u = m := Option.some.inj (scope.node.symm.trans node)
    have below (v : Tree) (h : u.Reaches v) : v.Sound :=
      Tree.sound_of_reaches sound (reaches.trans h)
    have noted := Tree.calls_of_isScopeOf below is scope
    exact lines_of_mem_duplicateCalls noted (fun site mem => (calls site mem).1)
      (fun site mem => (calls site mem).2) mem

/-- The variable `a` on a line. -/
def variableA (line : Int) : Tree := .known .lvar line [.atom (.sym "a")]

/-- The expression `-a.c`, which is the sign in front of the call. -/
def negatedCall (line : Int) : Tree :=
  .callOn line line (.callOn line line (variableA line) "c" []) "-@" []

/-- The expression `a.b = -a.c`. -/
def mirrorExpression (line : Int) : Tree :=
  .callOn line line (variableA line) "b=" [negatedCall line]

/-- A method that evaluates the expression twice. -/
def mirrorMethod : Tree :=
  .known .defn 1 [.atom (.sym "mirror"), mirrorExpression 2, mirrorExpression 3]

theorem isIdentifier_letter {c : Char} (noDigit : c.isDigit = false) (name : isNameChar c) :
    IsIdentifier [c] := by
  refine ⟨List.cons_ne_nil _ _, ?_, List.forall_mem_singleton.2 name⟩
  intro d first
  cases first
  exact noDigit

theorem isExpression_variableA (line : Int) :
    (variableA line).IsExpression Char.isUpper ∧ (variableA line).WellGrouped := by
  refine ⟨.lvar (isIdentifier_letter rfl rfl) fun c first => ?_, ?_⟩
  · cases first
    rfl
  · have name : (Tree.atom (.sym "a")).WellGrouped :=
      Tree.wellGrouped_iff.2 ⟨rfl, List.forall_mem_nil _⟩
    exact Tree.wellGrouped_iff.2 ⟨rfl, List.forall_mem_singleton.2 name⟩

/-- Every call in the expression is a well-grouped expression. -/
theorem mirrorExpression_sites (line : Int) : ∀ site ∈ (mirrorExpression line).callSites,
    site.tree.IsExpression Char.isUpper ∧ site.tree.WellGrouped := by
  obtain ⟨a, plain⟩ := isExpression_variableA line
  have name : IsMethodName "c".toList := ⟨_, isIdentifier_letter rfl rfl, Or.inl rfl⟩
  have attr : IsIdentifier "b".toList := isIdentifier_letter rfl rfl
  have sent : (Tree.callOn line line (variableA line) "c" []).IsExpression Char.isUpper ∧
      (Tree.callOn line line (variableA line) "c" []).WellGrouped :=
    ⟨.call a (List.forall_mem_nil _) (.name name),
      Tree.wellGrouped_callOn.2 ⟨rfl, plain, List.forall_mem_nil _⟩⟩
  have negated : (negatedCall line).IsExpression Char.isUpper ∧ (negatedCall line).WellGrouped :=
    ⟨.call sent.1 (List.forall_mem_nil _) (.sign (by decide)),
      Tree.wellGrouped_callOn.2 ⟨rfl, sent.2, List.forall_mem_nil _⟩⟩
  have mirrored : (mirrorExpression line).IsExpression Char.isUpper ∧
      (mirrorExpression line).WellGrouped :=
    ⟨.call a (List.forall_mem_singleton.2 negated.1) (.writer attr rfl),
      Tree.wellGrouped_callOn.2 ⟨rfl, plain, List.forall_mem_singleton.2 negated.2⟩⟩
  have sites : (mirrorExpression line).callSites = [⟨mirrorExpression line, "b="⟩,
      ⟨negatedCall line, "-@"⟩, ⟨.callOn line line (variableA line) "c" [], "c"⟩] := rfl
  rw [sites, List.forall_mem_cons, List.forall_mem_cons, List.forall_mem_singleton]
  exact ⟨mirrored, negated, sent⟩

set_option maxRecDepth 4000 in
/-- Each of the three calls in the expression is made on both lines. -/
theorem mirrorMethod_repetitions :
    (mirrorExpression 2).render = (mirrorExpression 3).render ∧
      (mirrorExpression 2).withoutLines = (mirrorExpression 3).withoutLines ∧
      ∃ chains root s outer, mirrorMethod.examineScopes = .ok (chains, root) ∧
        s :: outer ∈ chains ∧ s.node = some mirrorMethod ∧
        (s.duplicateCalls {}).map Warning.lines = [some [2, 3], some [2, 3], some [2, 3]] ∧
        ∀ w ∈ s.duplicateCalls {},
          ∃ site ∈ Tree.callSitesAll [mirrorExpression 2, mirrorExpression 3],
            w.lines = some ((site.repetitions
              (Tree.callSitesAll [mirrorExpression 2, mirrorExpression 3])).map
                fun other => other.tree.line) := by
  obtain ⟨texts, counts⟩ := signature_determines_grouped_expression Char.isUpper
  have sites := mirrorExpression_sites
  have all : ∀ site ∈ Tree.callSitesAll [mirrorExpression 2, mirrorExpression 3],
      site.tree.IsExpression Char.isUpper ∧ site.tree.WellGrouped :=
    List.forall_mem_append.2 ⟨sites 2, List.forall_mem_append.2 ⟨sites 3, List.forall_mem_nil _⟩⟩
  have first (line : Int) : ⟨mirrorExpression line, "b="⟩ ∈ (mirrorExpression line).callSites :=
    List.mem_cons_self
  have same : (mirrorExpression 2).render = (mirrorExpression 3).render := rfl
  obtain ⟨-, -, determined⟩ :=
    texts _ _ (sites 2 _ (first 2)).1 (sites 3 _ (first 3)).1
  have equal := (determined (sites 2 _ (first 2)).2 (sites 3 _ (first 3)).2).1 same
  obtain ⟨s, outer, walked, node, lines⟩ : ∃ s outer,
      mirrorMethod.walk.completed = [s :: outer] ∧ s.node = some mirrorMethod ∧
        (s.duplicateCalls {}).map Warning.lines = [some [2, 3], some [2, 3], some [2, 3]] :=
    ⟨_, _, rfl, rfl, rfl⟩
  have mem : s :: outer ∈ mirrorMethod.walk.completed := by
    rw [walked]
    exact List.mem_cons_self
  refine ⟨same, equal, _, _, s, outer, rfl, mem, node, lines, ?_⟩
  exact counts mirrorMethod _ _ rfl mirrorMethod _ .refl rfl all s outer mem node {}

/-- The expression `(-a).c`, which is the call on the sign. -/
def callOnNegated (line : Int) : Tree :=
  .callOn line line (.callOn line line (variableA line) "-@" []) "c" []

/-- A method that makes the call on the sign, and then puts the sign in front of the call. -/
def negationMethod : Tree := .known .defn 0 [.atom (.sym "m"), callOnNegated 0, negatedCall 0]

set_option maxRecDepth 4000 in
/-- The two calls are different, and yet they are counted as one that is made twice. -/
theorem negatedCall_counted_with_callOnNegated :
    (callOnNegated 0).IsExpression Char.isUpper ∧ (negatedCall 0).IsExpression Char.isUpper ∧
      (callOnNegated 0).withoutLines ≠ (negatedCall 0).withoutLines ∧
      (callOnNegated 0).render = (negatedCall 0).render ∧
      ∃ ws, negationMethod.examine {} "m" = .ok ws ∧
        ws.map Warning.details = [[("count", .int 2), ("name", .text "-a.c")]] := by
  obtain ⟨a, -⟩ := isExpression_variableA 0
  have name : IsMethodName "c".toList := ⟨_, isIdentifier_letter rfl rfl, Or.inl rfl⟩
  have sign : "-@" ∈ ["-@", "+@", "~"] := List.mem_cons_self
  have noArguments : ∀ u ∈ ([] : List Tree), u.IsExpression Char.isUpper := List.forall_mem_nil _
  refine ⟨.call (.call a noArguments (.sign sign)) noArguments (.name name),
    .call (.call a noArguments (.name name)) noArguments (.sign sign), ?_,
    Tree.render_send_on_sign a sign name noArguments 0 0, _, rfl, ?_⟩
  · intro same
    have methods := congrArg (fun t => Tree.nameAt t.children 1) same
    exact absurd methods (by decide)
  · simp only [warningsAbout, Chain.warnings, resolve_default]
    rfl

end CodeSmell
