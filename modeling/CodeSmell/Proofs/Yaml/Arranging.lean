import CodeSmell.Proofs.Yaml.WrittenDocuments
import CodeSmell.Yaml.Document
import Mathlib.Data.List.Forall2

/-!
# Nodes of a written document

A node shows a value if it has the value's structure and texts, on whatever lines
(`Value.Shows`). The tokens of a value are arranged into a node that shows it
(`arrangeNode_value`), and so a written document is read as one whose node shows its entries
(`read_writeFields`).
-/

set_option autoImplicit false

namespace CodeSmell

namespace Yaml

/-! ## Values and nodes -/

/-- Induction over values: a property of the values of all entries carries over to a table. -/
theorem Value.induct {motive : Value → Prop} (int : ∀ n, motive (.int n))
    (bool : ∀ b, motive (.bool b)) (text : ∀ t, motive (.text t))
    (list : ∀ items, motive (.list items))
    (table : ∀ fields, (∀ field ∈ fields, motive field.2) → motive (.table fields)) :
    ∀ v, motive v
  | .int n => int n
  | .bool b => bool b
  | .text t => text t
  | .list items => list items
  | .table fields => table fields fun field _ => Value.induct int bool text list table field.2
termination_by v => sizeOf v
decreasing_by
  have inList := List.sizeOf_lt_of_mem ‹field ∈ fields›
  have inPair : sizeOf field.2 < sizeOf field := by
    obtain ⟨name, value⟩ := field
    change sizeOf value < sizeOf (name, value)
    rw [Prod.mk.sizeOf_spec]
    omega
  simp
  omega

/-- A node that is a text without a tag. -/
def ShowsText (t : Text) (node : Node) : Prop :=
  ∃ line, node = .scalar t.shown (isPlainText t.shown) none line

mutual
/-- A node that has the structure and the texts of a value. -/
inductive Value.Shows : Value → Node → Prop
  | int (n : Int) (line : Nat) : Value.Shows (.int n) (.scalar (toString n) true none line)
  | bool (b : Bool) (line : Nat) : Value.Shows (.bool b) (.scalar (boolWord b) true none line)
  | text {t : Text} {node : Node} (shows : ShowsText t node) : Value.Shows (.text t) node
  | list {items : List Text} {nodes : List Node} (line : Nat)
    (shows : List.Forall₂ ShowsText items nodes) :
    Value.Shows (.list items) (.sequence nodes none line)
  | table {fields : List (Text × Value)} {entries : List (Node × Node)} (line : Nat)
    (shows : FieldsShow fields entries) : Value.Shows (.table fields) (.mapping entries none line)

/-- Entries that have the keys of fields and show their values. -/
inductive FieldsShow : List (Text × Value) → List (Node × Node) → Prop
  | nil : FieldsShow [] []
  | cons {name : Text} {v : Value} {key node : Node} {fields : List (Text × Value)}
    {entries : List (Node × Node)} (shownKey : ShowsText name key) (shownValue : v.Shows node)
    (shows : FieldsShow fields entries) :
    FieldsShow ((name, v) :: fields) ((key, node) :: entries)
end

/-! ## Steps -/

namespace Arranging

variable {α β : Type} {s s' : Arrangement}

theorem bind_of_ok {x : Arranging α} {f : α → Arranging β} {a : α} (h : x s = .ok (a, s')) :
    (x >>= f) s = f a s' := by
  change (x s >>= fun p => f p.1 p.2) = f a s'
  rw [h]
  rfl

theorem peek_eq {token : Token} {tokens : List Token} :
    peek { s with tokens := token :: tokens } = .ok (token, { s with tokens := token :: tokens }) :=
  rfl

theorem skip_eq {token : Token} {tokens : List Token} :
    skip { s with tokens := token :: tokens } = .ok ((), { s with tokens := tokens }) :=
  rfl

end Arranging

/-- A token with which a node of a written document starts. -/
def startsNode : TokenKind → Bool
  | .scalar _ _ => true
  | .flowSequence => true
  | .flowMapping => true
  | .blockSequence => true
  | .blockMapping => true
  | _ => false

variable {s : Arrangement} {token : Token} {tokens : List Token}

theorem arrangeMarks_eq (start : Nat) (starts : startsNode token.kind = true) :
    arrangeMarks start { s with tokens := token :: tokens }
      = .ok ({}, { s with tokens := token :: tokens }) := by
  obtain ⟨kind, line⟩ := token
  cases kind with
  | scalar | flowSequence | flowMapping | blockSequence | blockMapping => rfl
  | _ => cases starts

/-- A node of a written document has neither a name nor a tag. -/
theorem arrangeNode_eq (fuel : Nat) (block bare : Bool) (starts : startsNode token.kind = true) :
    arrangeNode (fuel + 1) block bare { s with tokens := token :: tokens }
      = arrangeContent fuel block bare token.line {} { s with tokens := token :: tokens } := by
  have marks := @arrangeMarks_eq s token tokens token.line starts
  rw [arrangeNode, Arranging.bind_of_ok Arranging.peek_eq]
  obtain ⟨kind, line⟩ := token
  cases kind with
  | scalar | flowSequence | flowMapping | blockSequence | blockMapping =>
    exact Arranging.bind_of_ok marks
  | _ => cases starts

theorem arrangeContent_scalar (fuel : Nat) (block bare : Bool) (start line : Nat) (value : String)
    (plain : Bool) :
    arrangeContent (fuel + 1) block bare start {}
        { s with tokens := ⟨.scalar value plain, line⟩ :: tokens }
      = .ok (.scalar value plain none start, { s with tokens := tokens }) := by
  rw [arrangeContent]
  rfl

theorem arrangeContent_brackets (fuel : Nat) (block bare : Bool) (start line line' : Nat) :
    arrangeContent (fuel + 2) block bare start {}
        { s with tokens := ⟨.flowSequence, line⟩ :: ⟨.flowSequenceEnd, line'⟩ :: tokens }
      = .ok (.sequence [] none start, { s with tokens := tokens }) := by
  rw [arrangeContent, Arranging.bind_of_ok Arranging.peek_eq]
  dsimp only
  rw [Arranging.bind_of_ok Arranging.skip_eq, arrangeFlowSequence]
  rfl

theorem arrangeContent_braces (fuel : Nat) (block bare : Bool) (start line line' : Nat) :
    arrangeContent (fuel + 2) block bare start {}
        { s with tokens := ⟨.flowMapping, line⟩ :: ⟨.flowMappingEnd, line'⟩ :: tokens }
      = .ok (.mapping [] none start, { s with tokens := tokens }) := by
  rw [arrangeContent, Arranging.bind_of_ok Arranging.peek_eq]
  dsimp only
  rw [Arranging.bind_of_ok Arranging.skip_eq, arrangeFlowMapping]
  rfl

theorem arrangeContent_items (fuel : Nat) (bare : Bool) (start line : Nat) :
    arrangeContent (fuel + 1) true bare start {}
        { s with tokens := ⟨.blockSequence, line⟩ :: tokens }
      = arrangeBlockSequence fuel line start none [] { s with tokens := tokens } := by
  rw [arrangeContent, Arranging.bind_of_ok Arranging.peek_eq]
  exact Arranging.bind_of_ok Arranging.skip_eq

theorem arrangeContent_fields (fuel : Nat) (bare : Bool) (start line : Nat) :
    arrangeContent (fuel + 1) true bare start {}
        { s with tokens := ⟨.blockMapping, line⟩ :: tokens }
      = arrangeBlockMapping fuel line start none [] { s with tokens := tokens } := by
  rw [arrangeContent, Arranging.bind_of_ok Arranging.peek_eq]
  exact Arranging.bind_of_ok Arranging.skip_eq

/-! ## Collections -/

/-- Tokens of these kinds, in front of any others, are arranged into a node with a property. Three
steps for each token are enough. -/
def Arranges (kinds : List TokenKind) (shown : Node → Prop) : Prop :=
  ∀ (s : Arrangement) (tokens rest : List Token) (fuel : Nat) (bare : Bool),
    tokens.map Token.kind = kinds → 3 * tokens.length ≤ fuel →
    ∃ node, arrangeNode fuel true bare { s with tokens := tokens ++ rest }
      = .ok (node, { s with tokens := rest }) ∧ shown node

theorem arranges_scalar (text : String) (plain : Bool) :
    Arranges [.scalar text plain] fun node => ∃ line, node = .scalar text plain none line := by
  intro s tokens rest fuel bare kinds enough
  obtain ⟨⟨kind, line⟩, rfl, same⟩ := List.map_eq_singleton_iff.1 kinds
  obtain rfl : kind = .scalar text plain := same
  obtain ⟨fuel, rfl⟩ : ∃ n, fuel = n + 2 := ⟨fuel - 2, by simp at enough; omega⟩
  refine ⟨.scalar text plain none line, ?_, line, rfl⟩
  rw [List.singleton_append, arrangeNode_eq (fuel + 1) true bare rfl]
  exact arrangeContent_scalar fuel true bare line line text plain

theorem arranges_text (t : Text) : Arranges [textToken t] (ShowsText t) :=
  arranges_scalar t.shown (isPlainText t.shown)

theorem arrangeBlockSequence_entry (fuel opening start line : Nat) (before : List Node)
    (starts : startsNode token.kind = true) :
    arrangeBlockSequence (fuel + 1) opening start none before
        { s with tokens := ⟨.blockEntry, line⟩ :: token :: tokens }
      = (arrangeNode fuel true false >>= fun item =>
          arrangeBlockSequence fuel opening start none (item :: before))
        { s with tokens := token :: tokens } := by
  rw [arrangeBlockSequence, Arranging.bind_of_ok Arranging.peek_eq]
  dsimp only
  rw [Arranging.bind_of_ok Arranging.skip_eq, Arranging.bind_of_ok Arranging.peek_eq]
  obtain ⟨kind, line⟩ := token
  cases kind with
  | scalar | flowSequence | flowMapping | blockSequence | blockMapping => rfl
  | _ => cases starts

/-- The items of a list up to the end of it. -/
theorem arrangeBlockSequence_items (items : List Text) (s : Arrangement)
    (tokens rest : List Token)
    (kinds : tokens.map Token.kind = itemTokens items ++ [.blockEnd]) (fuel : Nat)
    (enough : 3 * tokens.length ≤ fuel) (opening start : Nat) (before : List Node) :
    ∃ nodes, arrangeBlockSequence fuel opening start none before { s with tokens := tokens ++ rest }
        = .ok (.sequence (before.reverse ++ nodes) none start, { s with tokens := rest }) ∧
      List.Forall₂ ShowsText items nodes := by
  induction items generalizing tokens fuel before with
  | nil =>
    obtain ⟨⟨kind, line⟩, rfl, same⟩ := List.map_eq_singleton_iff.1 kinds
    obtain rfl : kind = .blockEnd := same
    obtain ⟨fuel, rfl⟩ : ∃ n, fuel = n + 1 := ⟨fuel - 1, by simp at enough; omega⟩
    refine ⟨[], ?_, .nil⟩
    rw [List.append_nil, List.singleton_append, arrangeBlockSequence]
    rfl
  | cons item items ih =>
    obtain ⟨⟨_, entryLine⟩, _, rfl, rfl, parts⟩ := List.map_eq_cons_iff.1 kinds
    obtain ⟨token, later, rfl, scalar, kinds'⟩ := List.map_eq_cons_iff.1 parts
    simp only [List.length_cons] at enough
    obtain ⟨fuel, rfl⟩ : ∃ n, fuel = n + 1 := ⟨fuel - 1, by omega⟩
    obtain ⟨node, arranged, shown⟩ := arranges_text item s [token] (later ++ rest) fuel false
      (by rw [List.map_singleton, scalar]) (by simp; omega)
    obtain ⟨nodes, rest', showns⟩ := ih later kinds' fuel (by omega) (node :: before)
    refine ⟨node :: nodes, ?_, .cons shown showns⟩
    rw [List.cons_append, List.cons_append, arrangeBlockSequence_entry fuel opening start entryLine
      before (by rw [scalar]; rfl)]
    refine (Arranging.bind_of_ok arranged).trans ?_
    rw [rest', List.reverse_cons, List.append_assoc, List.singleton_append]

theorem exists_tokens_cons (v : Value) :
    ∃ kind kinds, v.tokens = kind :: kinds ∧ startsNode kind = true := by
  cases v with
  | int | bool | text => exact ⟨_, _, rfl, rfl⟩
  | list items => cases items <;> exact ⟨_, _, rfl, rfl⟩
  | table fields => cases fields <;> exact ⟨_, _, rfl, rfl⟩

theorem arrangeEntryPart_eq (fuel line : Nat) (starts : startsNode token.kind = true) :
    arrangeEntryPart (fuel + 1) line { s with tokens := token :: tokens }
      = arrangeNode fuel true true { s with tokens := token :: tokens } := by
  rw [arrangeEntryPart, Arranging.bind_of_ok Arranging.peek_eq]
  obtain ⟨kind, line⟩ := token
  cases kind with
  | scalar | flowSequence | flowMapping | blockSequence | blockMapping => rfl
  | _ => cases starts

theorem arrangeBlockValue_eq (fuel line : Nat) (starts : startsNode token.kind = true) :
    arrangeBlockValue (fuel + 2) { s with tokens := ⟨.value, line⟩ :: token :: tokens }
      = arrangeNode fuel true true { s with tokens := token :: tokens } := by
  rw [arrangeBlockValue, Arranging.bind_of_ok Arranging.peek_eq, if_pos rfl,
    Arranging.bind_of_ok Arranging.skip_eq, arrangeEntryPart_eq fuel line starts]

theorem arrangeBlockMapping_entry (fuel opening start line : Nat) (before : List (Node × Node)) :
    arrangeBlockMapping (fuel + 1) opening start none before
        { s with tokens := ⟨.key, line⟩ :: tokens }
      = (arrangeEntryPart fuel line >>= fun key => arrangeBlockValue fuel >>= fun value =>
          arrangeBlockMapping fuel opening start none ((key, value) :: before))
        { s with tokens := tokens } := by
  rw [arrangeBlockMapping, Arranging.bind_of_ok Arranging.peek_eq]
  exact Arranging.bind_of_ok Arranging.skip_eq

/-- The entries of a table up to the end of it. -/
theorem arrangeBlockMapping_fields (fields : List (Text × Value))
    (arranges : ∀ field ∈ fields, Arranges field.2.tokens field.2.Shows) (s : Arrangement)
    (tokens rest : List Token)
    (kinds : tokens.map Token.kind = fieldsTokens fields ++ [.blockEnd]) (fuel : Nat)
    (enough : 3 * tokens.length ≤ fuel) (opening start : Nat) (before : List (Node × Node)) :
    ∃ entries, arrangeBlockMapping fuel opening start none before
          { s with tokens := tokens ++ rest }
        = .ok (.mapping (before.reverse ++ entries) none start, { s with tokens := rest }) ∧
      FieldsShow fields entries := by
  induction fields generalizing tokens fuel before with
  | nil =>
    obtain ⟨⟨kind, line⟩, rfl, same⟩ := List.map_eq_singleton_iff.1 kinds
    obtain rfl : kind = .blockEnd := same
    obtain ⟨fuel, rfl⟩ : ∃ n, fuel = n + 1 := ⟨fuel - 1, by simp at enough; omega⟩
    refine ⟨[], ?_, .nil⟩
    rw [List.append_nil, List.singleton_append, arrangeBlockMapping]
    rfl
  | cons field fields ih =>
    obtain ⟨name, v⟩ := field
    have parts : tokens.map Token.kind = .key :: textToken name :: .value ::
        (v.tokens ++ (fieldsTokens fields ++ [.blockEnd])) := by
      rw [kinds, fieldsTokens, fieldTokens]
      simp
    obtain ⟨⟨_, keyLine⟩, _, rfl, rfl, parts₁⟩ := List.map_eq_cons_iff.1 parts
    obtain ⟨name', _, rfl, scalar, parts₂⟩ := List.map_eq_cons_iff.1 parts₁
    obtain ⟨⟨_, valueLine⟩, _, rfl, rfl, parts₃⟩ := List.map_eq_cons_iff.1 parts₂
    obtain ⟨value, later, rfl, valueKinds, laterKinds⟩ := List.map_eq_append_iff.1 parts₃
    simp only [List.length_cons, List.length_append] at enough
    obtain ⟨fuel, rfl⟩ : ∃ n, fuel = n + 3 := ⟨fuel - 3, by omega⟩
    obtain ⟨key, arrangedKey, shownKey⟩ := arranges_text name s [name']
      (⟨.value, valueLine⟩ :: (value ++ later ++ rest)) (fuel + 1) true
      (by rw [List.map_singleton, scalar]) (by simp; omega)
    obtain ⟨node, arrangedValue, shownValue⟩ := arranges (name, v) List.mem_cons_self s value
      (later ++ rest) fuel true valueKinds (by omega)
    obtain ⟨entries, arrangedLater, shows⟩ := ih
      (fun field mem => arranges field (List.mem_cons_of_mem _ mem)) later laterKinds (fuel + 2)
      (by omega) ((key, node) :: before)
    refine ⟨(key, node) :: entries, ?_, .cons shownKey shownValue shows⟩
    -- the value's own first token says that it is not missing
    obtain ⟨kind, kinds', first, starts⟩ := exists_tokens_cons v
    obtain ⟨token, more, rfl, rfl, -⟩ := List.map_eq_cons_iff.1 (valueKinds.trans first)
    rw [List.singleton_append] at arrangedKey
    rw [← List.append_assoc] at arrangedValue
    simp only [List.cons_append] at arrangedKey arrangedValue ⊢
    rw [arrangeBlockMapping_entry]
    have keyPart := (arrangeEntryPart_eq (fuel + 1) keyLine (by rw [scalar]; rfl)).trans arrangedKey
    have valuePart := (arrangeBlockValue_eq fuel valueLine starts).trans arrangedValue
    rw [Arranging.bind_of_ok keyPart, Arranging.bind_of_ok valuePart, arrangedLater,
      List.reverse_cons, List.append_assoc, List.singleton_append]

/-- The tokens of a value are arranged into a node that shows it. -/
theorem arrangeNode_value (v : Value) : Arranges v.tokens v.Shows := by
  induction v using Value.induct with
  | int n =>
    intro s tokens rest fuel bare kinds enough
    obtain ⟨_, arranged, line, rfl⟩ :=
      arranges_scalar (toString n) true s tokens rest fuel bare kinds enough
    exact ⟨_, arranged, .int n line⟩
  | bool b =>
    intro s tokens rest fuel bare kinds enough
    obtain ⟨_, arranged, line, rfl⟩ :=
      arranges_scalar (boolWord b) true s tokens rest fuel bare kinds enough
    exact ⟨_, arranged, .bool b line⟩
  | text t =>
    intro s tokens rest fuel bare kinds enough
    obtain ⟨node, arranged, shows⟩ :=
      arranges_text t s tokens rest fuel bare kinds enough
    exact ⟨node, arranged, .text shows⟩
  | list items =>
    intro s tokens rest fuel bare kinds enough
    cases items with
    | nil =>
      obtain ⟨⟨_, line⟩, _, rfl, rfl, kinds'⟩ := List.map_eq_cons_iff.1 kinds
      obtain ⟨⟨_, line'⟩, rfl, rfl⟩ := List.map_eq_singleton_iff.1 kinds'
      obtain ⟨fuel, rfl⟩ : ∃ n, fuel = n + 3 := ⟨fuel - 3, by simp at enough; omega⟩
      refine ⟨.sequence [] none line, ?_, .list line .nil⟩
      exact (arrangeNode_eq (fuel + 2) true bare rfl).trans
        (arrangeContent_brackets fuel true bare line line line')
    | cons item items =>
      obtain ⟨⟨_, line⟩, more, rfl, rfl, kinds'⟩ := List.map_eq_cons_iff.1 kinds
      simp only [List.length_cons] at enough
      obtain ⟨fuel, rfl⟩ : ∃ n, fuel = n + 2 := ⟨fuel - 2, by omega⟩
      obtain ⟨nodes, arranged, shows⟩ := arrangeBlockSequence_items (item :: items) s more rest
        kinds' fuel (by omega) line line []
      refine ⟨.sequence nodes none line, ?_, .list line shows⟩
      exact ((arrangeNode_eq (fuel + 1) true bare rfl).trans
        (arrangeContent_items fuel bare line line)).trans arranged
  | table fields ih =>
    intro s tokens rest fuel bare kinds enough
    cases fields with
    | nil =>
      obtain ⟨⟨_, line⟩, _, rfl, rfl, kinds'⟩ := List.map_eq_cons_iff.1 kinds
      obtain ⟨⟨_, line'⟩, rfl, rfl⟩ := List.map_eq_singleton_iff.1 kinds'
      obtain ⟨fuel, rfl⟩ : ∃ n, fuel = n + 3 := ⟨fuel - 3, by simp at enough; omega⟩
      refine ⟨.mapping [] none line, ?_, .table line .nil⟩
      exact (arrangeNode_eq (fuel + 2) true bare rfl).trans
        (arrangeContent_braces fuel true bare line line line')
    | cons field fields =>
      obtain ⟨⟨_, line⟩, more, rfl, rfl, kinds'⟩ := List.map_eq_cons_iff.1 kinds
      simp only [List.length_cons] at enough
      obtain ⟨fuel, rfl⟩ : ∃ n, fuel = n + 2 := ⟨fuel - 2, by omega⟩
      obtain ⟨entries, arranged, shows⟩ := arrangeBlockMapping_fields (field :: fields) ih s more
        rest kinds' fuel (by omega) line line []
      refine ⟨.mapping entries none line, ?_, .table line shows⟩
      exact ((arrangeNode_eq (fuel + 1) true bare rfl).trans
        (arrangeContent_fields fuel bare line line)).trans arranged

/-! ## Documents -/

/-- A document without directives is its node. -/
theorem arrangeDocument_eq (fuel : Nat) {last : Token} {rest : List Token} {node : Node}
    (starts : startsNode token.kind = true)
    (arranged : arrangeNode fuel true false { s with tokens := token :: tokens }
      = .ok (node, { s with tokens := last :: rest })) :
    arrangeDocument fuel { s with tokens := token :: tokens }
      = .ok (some node, { s with tokens := last :: rest }) := by
  rw [arrangeDocument, Arranging.bind_of_ok Arranging.peek_eq]
  obtain ⟨kind, line⟩ := token
  cases kind with
  | scalar | flowSequence | flowMapping | blockSequence | blockMapping =>
    exact Arranging.bind_of_ok arranged
  | _ => cases starts

/-- A written table is read as a document without references whose node shows the table. -/
theorem read_writeFields {n : Nat} {field : Text × Value} {fields : List (Text × Value)}
    (keeps : (Value.table (field :: fields)).Keeps (n + 1)) (room : n + 1 ≤ ScanState.mostOpen) :
    ∃ node bound, Document.read (writeFields 0 (field :: fields)).toList
        = .ok (some ⟨node, [], bound⟩) ∧ (Value.table (field :: fields)).Shows node := by
  obtain ⟨tokens, scanned, kinds⟩ := scan_writeFields keeps room
  obtain ⟨own, _, rfl, ownKinds, lastKind⟩ := List.map_eq_append_iff.1 kinds
  obtain ⟨last, rfl, -⟩ := List.map_eq_singleton_iff.1 lastKind
  let s : Arrangement := { tokens := [], problem := none }
  let fuel := 3 * (own ++ [last]).length + 3
  have enough : 3 * own.length ≤ fuel := by simp [fuel]; omega
  obtain ⟨node, arranged, shows⟩ :=
    arrangeNode_value (.table (field :: fields)) s own [last] fuel false ownKinds enough
  obtain ⟨token, more, rfl, first, -⟩ := List.map_eq_cons_iff.1 ownKinds
  have whole := @arrangeDocument_eq s token (more ++ [last]) fuel last [] node
    (by rw [first]; rfl) arranged
  refine ⟨node, (token :: more ++ [last]).length + 1, ?_, shows⟩
  rw [Document.read, scanned, Document.ofTokens, StateT.run]
  exact (congrArg (· >>= _) whole).trans rfl

end Yaml

end CodeSmell
