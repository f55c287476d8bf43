import CodeSmell.Proofs.Parts
import CodeSmell.Scope.Outline

/-!
# Trees with and without a text

`Tree.shown` lists the trees whose texts make up the text of a node. A tree has a text unless a
block without one is shown in it (`Tree.readable_iff`). A block has no text of its own when
somewhere in its parameter list, as far as that list is followed (`Tree.listed`), stands a multiple
assignment without a list of targets (`Tree.LacksParameters`). Nothing else keeps a tree from being
read.
-/

set_option autoImplicit false

namespace CodeSmell

/-! ## Results -/

/-- A computation comes to a result. -/
def Yields {ε α : Type} (x : Except ε α) : Prop := ∃ a, x = .ok a

section Yields

variable {ε α β : Type}

@[simp] theorem exists_eq_ok (x : Except ε α) : (∃ a, x = .ok a) ↔ Yields x := Iff.rfl

@[simp] theorem yields_ok (a : α) : Yields (.ok a : Except ε α) := ⟨a, rfl⟩

@[simp] theorem yields_pure (a : α) : Yields (pure a : Except ε α) := ⟨a, rfl⟩

@[simp] theorem yields_error (e : ε) : ¬ Yields (.error e : Except ε α) := by
  rintro ⟨a, h⟩
  cases h

@[simp] theorem yields_bind (x : Except ε α) (f : α → Except ε β) :
    Yields (x >>= f) ↔ ∃ a, x = .ok a ∧ Yields (f a) := by
  cases x with
  | error e => simp [bind, Except.bind]
  | ok a => simp [bind, Except.bind]

@[simp] theorem yields_map (f : α → β) (x : Except ε α) : Yields (f <$> x) ↔ Yields x := by
  cases x <;> simp [Functor.map, Except.map]

@[simp] theorem yields_ite (c : Prop) [Decidable c] (x y : Except ε α) :
    Yields (if c then x else y) ↔ (c → Yields x) ∧ (¬ c → Yields y) := by
  by_cases h : c <;> simp [h]

@[simp] theorem yields_mapM (f : α → Except ε β) (xs : List α) :
    Yields (xs.mapM f) ↔ ∀ x ∈ xs, Yields (f x) := by
  induction xs with
  | nil => simp
  | cons x xs ih => simp [List.mapM_cons, ih]

theorem mapM_eq_ok {f : α → Except ε β} {g : α → β} {xs : List α}
    (each : ∀ x ∈ xs, f x = .ok (g x)) : xs.mapM f = .ok (xs.map g) := by
  induction xs with
  | nil => rfl
  | cons x xs ih =>
    obtain ⟨first, later⟩ := List.forall_mem_cons.1 each
    rw [List.mapM_cons, first, ih later]
    rfl

end Yields

namespace Tree

/-! ## Slots -/

/-- A tree has a text. -/
def Readable (t : Tree) : Prop := Yields t.render

theorem render_eq (t : Tree) : t.render = treeText t (t.children.map sketch) :=
  value_annotate treeText t

open Sketch

@[simp] theorem yields_text_sketch (t : Tree) : Yields t.sketch.text ↔ t.Readable := Iff.rfl

@[simp] theorem tree_sketch (t : Tree) : Annotated.tree t.sketch = t := tree_annotate treeText t

@[simp] theorem parts_sketch (t : Tree) : Annotated.parts t.sketch = t.children.map sketch :=
  parts_annotate treeText t

@[simp] theorem yields_textAt (cs : List Tree) (i : Nat) :
    Yields (textAt (cs.map sketch) i) ↔ ∀ u ∈ cs[i]?, u.Readable := by
  rw [textAt, List.getElem?_map]
  cases cs[i]? <;> simp

@[simp] theorem yields_operand (t : Tree) : Yields t.sketch.operand ↔ t.Readable := by
  simp [operand]

@[simp] theorem yields_operandAt (cs : List Tree) (i : Nat) :
    Yields (operandAt (cs.map sketch) i) ↔ ∀ u ∈ cs[i]?, u.Readable := by
  rw [operandAt, List.getElem?_map]
  cases cs[i]? <;> simp [yields_operand]

/-- Whether a tree reads by its name as the target of an assignment. -/
def isNamed (t : Tree) : Bool :=
  [.lasgn, .iasgn, .dasgnCurr, .lvar, .ivar, .dvar, .gvar].any fun k => t.hasTag k

@[simp] theorem yields_target (t : Tree) :
    Yields t.sketch.target ↔ (t.isNamed = false → t.Readable) := by
  rw [Sketch.target, tree_sketch]
  cases t with
  | atom a => simp [isNamed, hasTag]
  | node tag line cs =>
    cases tag with
    | other word unknown => simp [isNamed, hasTag]
    | known k => cases k <;> simp [isNamed, hasTag]

@[simp] theorem yields_targetAt (cs : List Tree) (i : Nat) :
    Yields (targetAt (cs.map sketch) i) ↔ ∀ u ∈ cs[i]?, u.isNamed = false → u.Readable := by
  rw [targetAt, List.getElem?_map]
  cases cs[i]? <;> simp [yields_target]

@[simp] theorem yields_joined (separator : String) (ts : List Tree) :
    Yields (joined separator (ts.map sketch)) ↔ ∀ u ∈ ts, u.Readable := by
  simp [joined]

@[simp] theorem yields_list (ts : List Tree) :
    Yields (list (ts.map sketch)) ↔ ∀ u ∈ ts, u.Readable :=
  yields_joined ", " ts

@[simp] theorem arguments_sketch (t : Tree) : t.sketch.arguments = t.arguments.map sketch := by
  rw [Sketch.arguments, sketch, tree_annotate, parts_annotate]
  cases t with
  | atom a => rfl
  | node tag line cs =>
    cases tag with
    | other word unknown => rfl
    | known k => cases k <;> rfl

@[simp] theorem argumentsAt_map_sketch (cs : List Tree) (i : Nat) :
    Sketch.argumentsAt (cs.map sketch) i = (argumentsAt cs i).map sketch := by
  rw [Sketch.argumentsAt, argumentsAt, List.getElem?_map]
  cases cs[i]? <;> simp [arguments_sketch]

/-! ## Parameter lists -/

/-- The trees that are read when a tree is read as a list of parameters. -/
def listed : Tree → List Tree
  | .atom _ => []
  | .node tag _ cs =>
    match tag with
    | .known .dasgnCurr | .known .lasgn => []
    | .known .masgn => (nodeAt? cs 0).toList
    | _ => cs

/-- Whether a tree is a multiple assignment without a list of targets. -/
def lacksTargets (t : Tree) : Bool := t.hasTag .masgn && (nodeAt? t.children 0).isNone

theorem lacksTargets_eq_false_iff {t : Tree} :
    t.lacksTargets = false ↔ (t.hasTag .masgn → (nodeAt? t.children 0).isSome) := by
  simp [lacksTargets]

theorem yields_parameters (ts : List Tree) :
    Yields (Tree.parameters ts) ↔ ∀ u ∈ ts, Yields u.parameter := by
  induction ts with
  | nil => simp [Tree.parameters]
  | cons t ts ih => simp [Tree.parameters, ih]

theorem yields_parameter_step (t : Tree) :
    Yields t.parameter ↔ t.lacksTargets = false ∧ ∀ u, u ∈ t.listed → Yields u.parameter := by
  cases t with
  | atom a => simp [Tree.parameter, lacksTargets, hasTag, listed]
  | node tag line cs =>
    cases tag with
    | other word unknown =>
      simp [Tree.parameter, lacksTargets, hasTag, listed, yields_parameters]
    | known k =>
      cases k
      case masgn =>
        cases cs with
        | nil => simp [Tree.parameter, lacksTargets, hasTag, children, nodeAt?]
        | cons left values =>
          by_cases node : left.isNode
          · simp [Tree.parameter, lacksTargets, hasTag, children, nodeAt?, listed, node]
          · simp [Tree.parameter, lacksTargets, hasTag, children, nodeAt?, node]
      all_goals simp [Tree.parameter, lacksTargets, hasTag, listed, yields_parameters]

/-- A tree is read on the way when another is read as a list of parameters. -/
abbrev Lists : Tree → Tree → Prop := Relation.ReflTransGen fun t u => u ∈ t.listed

theorem mem_children_of_mem_listed {t u : Tree} (h : u ∈ t.listed) : u ∈ t.children := by
  cases t with
  | atom a => cases h
  | node tag line cs =>
    simp only [listed] at h
    split at h
    · cases h
    · cases h
    · rw [nodeAt?, Option.mem_toList, Option.filter_eq_some_iff] at h
      exact List.mem_of_getElem? h.1
    · exact h

/-- A list of parameters has a text unless a multiple assignment in it has no targets. -/
theorem yields_parameter (t : Tree) :
    Yields t.parameter ↔ ∀ u, t.Lists u → u.lacksTargets = false :=
  iff_forall_of_step (fun h => .single (mem_children_of_mem_listed h)) yields_parameter_step t

/-! ## Texts of nodes -/

/-- The values on the right side of a multiple assignment. -/
def assigned (t : Tree) : List Tree := if t.hasTag .array then t.children else [t]

/-- The arguments among the children of a node: those in a list, if there is only a list. -/
def flattened : List Tree → List Tree
  | [t] => if t.hasTag .arglist || t.hasTag .array then t.children else [t]
  | cs => cs

/-- The trees whose texts make up the text of a tree. -/
def shown : Tree → List Tree
  | .atom _ => []
  | .node tag _ cs =>
    match tag with
    | .known .self | .known .nil | .known .true | .known .false | .known .zsuper => []
    | .known .ivar | .known .lvar | .known .dvar | .known .gvar | .known .const
    | .known .vcall => []
    | .known .lit | .known .str | .known .not => cs[0]?.toList
    | .known .colon2 | .known .match2 | .known .match3 | .known .and | .known .or =>
      cs[0]?.toList ++ cs[1]?.toList
    | .known .call | .known .attrasgn => cs[0]?.toList ++ argumentsAt cs 2
    | .known .fcall => argumentsAt cs 1
    | .known .iter => cs[0]?.toList ++ cs.drop 2
    | .known .opAsgn1 => cs[0]?.toList ++ argumentsAt cs 1 ++ cs[3]?.toList
    | .known .opAsgn => cs[0]?.toList.filter (!isNamed ·) ++ cs[2]?.toList
    | .known .opAsgnOr | .known .opAsgnAnd =>
      cs[0]?.toList.filter (!isNamed ·) ++ (cs[1]?.bind fun t => t.children[1]?).toList
    | .known .iasgn | .known .lasgn | .known .dasgnCurr => cs[1]?.toList
    | .known .masgn => argumentsAt cs 0 ++ (cs[1]?.map assigned).getD []
    | .known .if => cs[0]?.toList ++ cs[1]?.toList ++ cs[2]?.toList
    | .known .yield | .known .super | .known .return => flattened cs
    | _ => cs

/-- A tree is a block whose parameter list has no text. -/
def LacksParameters (t : Tree) : Prop :=
  t.hasTag .iter ∧ ∃ p ∈ nodeAt? t.children 1, ∃ q, p.Lists q ∧ q.lacksTargets

theorem readable_atom (a : Atom) : (Tree.atom a).Readable := ⟨a.rendered, rfl⟩

theorem yields_withArguments (method : Text) (args : List Tree) :
    Yields (callText.withArguments method (args.map sketch)) ↔ ∀ u ∈ args, u.Readable := by
  cases args with
  | nil => simp [callText.withArguments]
  | cons t ts => simp [callText.withArguments, yields_list, -List.map_cons]

theorem eq_zero_of_ofMethod_eq_before {method sign : Text} {arguments : Nat}
    (h : CallStyle.ofMethod method arguments = .before sign) : arguments = 0 := by
  unfold CallStyle.ofMethod at h
  grind

theorem yields_callText (receiver : Option Tree) (method : Text) (args : List Tree) :
    Yields (callText (receiver.map sketch) method (args.map sketch)) ↔
      (∀ u ∈ receiver, u.Readable) ∧ ∀ u ∈ args, u.Readable := by
  unfold callText
  cases receiver with
  | none => simp [yields_withArguments]
  | some r =>
    by_cases empty : r.isNilAtom
    -- an empty receiver slot is left out of the text, and it could be read
    · have readable : r.Readable := by
        unfold isNilAtom at empty
        split at empty
        · exact readable_atom .nil
        · cases empty
      simp [empty, Option.filter, yields_withArguments, readable]
    · simp only [Option.map_some, Option.filter_some, tree_sketch, empty, Bool.not_false, if_true,
        List.length_map, Option.mem_some_iff]
      cases style : CallStyle.ofMethod method args.length with
      | before sign =>
        -- a sign stands in front only where there are no arguments
        obtain rfl : args = [] := List.length_eq_zero_iff.1 (eq_zero_of_ofMethod_eq_before style)
        simp
      | elementWriter =>
        rcases List.eq_nil_or_concat args with rfl | ⟨front, last, rfl⟩
        · simp [list, joined]
        · have last : Yields (list [last.sketch]) ↔ last.Readable := by
            simpa using yields_list [last]
          simp [or_imp, forall_and, last]
      | between | element | writer attr | plain => simp [yields_withArguments]

theorem yields_blockText (cs : List Tree) :
    Yields (blockText (cs.map sketch)) ↔ (∀ p ∈ nodeAt? cs 1, Yields p.parameter) ∧
      (∀ u ∈ cs[0]?, u.Readable) ∧ ∀ u ∈ cs.drop 2, u.Readable := by
  have trees : (cs.map sketch).map Annotated.tree = cs := by simp [Function.comp_def]
  have parameters : Yields (blockText.parameters (cs.map sketch)) ↔
      ∀ p ∈ nodeAt? cs 1, Yields p.parameter := by
    rw [blockText.parameters, trees]
    cases nodeAt? cs 1 <;> simp
  have body : Yields (blockText.body (cs.map sketch)) ↔ ∀ u ∈ cs.drop 2, u.Readable := by
    rw [blockText.body, ← List.map_drop]
    cases cs.drop 2 with
    | nil => simp
    | cons t ts => simp [-List.map_cons]
  have text : Yields (blockText (cs.map sketch)) ↔ Yields (textAt (cs.map sketch) 0) ∧
      Yields (blockText.parameters (cs.map sketch)) ∧ Yields (blockText.body (cs.map sketch)) := by
    simp [blockText]
  rw [text, parameters, body, yields_textAt]
  exact and_left_comm

theorem yields_conditional (operator : String) (cs : List Tree) :
    Yields (nodeText.conditional (cs.map sketch) operator) ↔
      (∀ u ∈ cs[0]?, u.isNamed = false → u.Readable) ∧
        ∀ u ∈ cs[1]?.bind (fun t => t.children[1]?), u.Readable := by
  rw [nodeText.conditional, List.getElem?_map]
  cases cs[1]? with
  | none => simp
  | some t =>
    cases t with
    | atom a => simp [isNode, children]
    | node tag line cs => simp [isNode, children, and_comm]

theorem yields_multiple (cs : List Tree) :
    Yields (nodeText (.known .masgn) (cs.map sketch)) ↔
      (∀ u ∈ argumentsAt cs 0, u.Readable) ∧ ∀ u ∈ (cs[1]?.map assigned).getD [], u.Readable := by
  simp only [nodeText, argumentsAt_map_sketch, List.getElem?_map]
  cases slot : cs[1]? with
  | none => simp [slot]
  | some t => by_cases array : t.hasTag .array <;> simp [assigned, array]

theorem yields_condition (cs : List Tree) :
    Yields (nodeText (.known .if) (cs.map sketch)) ↔
      (∀ u ∈ cs[0]?, u.Readable) ∧ (∀ u ∈ cs[1]?, u.Readable) ∧ ∀ u ∈ cs[2]?, u.Readable := by
  simp only [nodeText, List.getElem?_map]
  cases cs[2]? with
  | none => simp
  | some t =>
    by_cases empty : t.isNilAtom || t.hasTag .nil
    -- an empty branch is left out, but it has a text
    · have readable : t.Readable := by
        cases t with
        | atom a => exact readable_atom a
        | node tag line cs =>
          obtain rfl : tag = .known .nil := by simpa [isNilAtom, hasTag] using empty
          exact ⟨_, rfl⟩
      simp [empty, readable]
    · simp [empty]

theorem yields_flattened {k : Keyword} (h : k = .yield ∨ k = .super ∨ k = .return)
    (cs : List Tree) :
    Yields (nodeText (.known k) (cs.map sketch)) ↔ ∀ u ∈ flattened cs, u.Readable := by
  rcases cs with _ | ⟨first, _ | ⟨second, rest⟩⟩
  · rcases h with rfl | rfl | rfl <;> simp [nodeText, flattened]
  · by_cases list : first.hasTag .arglist || first.hasTag .array
    · rcases h with rfl | rfl | rfl <;> simp [nodeText, flattened, list]
    · have := yields_list [first]
      rcases h with rfl | rfl | rfl <;> simp_all [nodeText, flattened]
  · have := yields_list (first :: second :: rest)
    rcases h with rfl | rfl | rfl <;> simp_all [nodeText, flattened]

theorem yields_nodeText {tag : Tag} (plain : tag ≠ .known .iter) (line : Int) (cs : List Tree) :
    Yields (nodeText tag (cs.map sketch)) ↔ ∀ u ∈ (node tag line cs).shown, u.Readable := by
  cases tag with
  | other word unknown => simp [nodeText, shown]
  | known k =>
    -- the last line is for nodes whose text has a fixed number of slots or all of them
    cases k
    case iter => exact absurd rfl plain
    case opAsgnOr | opAsgnAnd => simp [nodeText, shown, yields_conditional, or_imp, forall_and]
    case masgn => simp [yields_multiple, shown, or_imp, forall_and]
    case call | attrasgn => simp [nodeText, shown, yields_callText, or_imp, forall_and]
    case fcall =>
      have call := yields_callText none (Sketch.nameAt (cs.map sketch) 0) (argumentsAt cs 1)
      simpa [nodeText, shown] using call
    case «if» => simp [yields_condition, shown, or_imp, forall_and]
    case yield | super | «return» =>
      rw [yields_flattened (by simp) cs]
      simp [shown]
    case lit =>
      rcases cs with _ | ⟨first, rest⟩
      · simp [nodeText, shown, textAt]
      · cases first with
        | atom a => cases a <;> simp [nodeText, shown, readable_atom, -List.map_cons]
        | node tag l below => simp [nodeText, shown, -List.map_cons]
    case iasgn | lasgn | dasgnCurr =>
      rcases cs with _ | ⟨name, _ | ⟨value, rest⟩⟩
      · simp [nodeText, shown]
      · simp [nodeText, shown]
      · simp [nodeText, shown, -List.map_cons]
    case match3 => simp [nodeText, shown, or_imp, forall_and, and_comm]
    all_goals simp [nodeText, shown, or_imp, forall_and]

/-- A tree has a text if what is shown of it has one and its parameter list, if it is a block, has
one too. -/
theorem readable_step (t : Tree) :
    t.Readable ↔ ¬ t.LacksParameters ∧ ∀ u, u ∈ t.shown → u.Readable := by
  rw [Readable, render_eq]
  cases t with
  | atom a => simp [treeText, LacksParameters, hasTag, shown]
  | node tag line cs =>
    by_cases block : tag = .known .iter
    · subst block
      simp [treeText, nodeText, yields_blockText, LacksParameters, hasTag, shown, children,
        yields_parameter, or_imp, forall_and]
    · simp [treeText, children, LacksParameters, hasTag, block, yields_nodeText block line]

/-- A tree is shown in another: its text is part of that of the other. -/
abbrev Shows : Tree → Tree → Prop := Relation.ReflTransGen fun t u => u ∈ t.shown

theorem eq_or_mem_of_mem_arguments {t u : Tree} (h : u ∈ t.arguments) :
    u = t ∨ u ∈ t.children := by
  unfold arguments at h
  split at h
  · exact Or.inr h
  · exact Or.inr h
  · exact Or.inl (List.mem_singleton.1 h)
  · cases h

theorem mem_of_mem_argumentsAt {cs : List Tree} {i : Nat} {u : Tree} (h : u ∈ argumentsAt cs i) :
    ∃ t ∈ cs, u = t ∨ u ∈ t.children := by
  cases found : cs[i]? with
  | none => simp [argumentsAt, found] at h
  | some t =>
    rw [argumentsAt, found] at h
    exact ⟨t, List.mem_of_getElem? found, eq_or_mem_of_mem_arguments h⟩

theorem mem_of_mem_flattened {cs : List Tree} {u : Tree} (h : u ∈ flattened cs) :
    ∃ t ∈ cs, u = t ∨ u ∈ t.children := by
  unfold flattened at h
  split at h
  next t =>
    split at h
    · exact ⟨t, List.mem_singleton.2 rfl, Or.inr h⟩
    · exact ⟨u, h, Or.inl rfl⟩
  next => exact ⟨u, h, Or.inl rfl⟩

/-- What is shown of a node stands one or two steps below it. -/
theorem mem_of_mem_shown {tag : Tag} {line : Int} {cs : List Tree} {u : Tree}
    (h : u ∈ (node tag line cs).shown) : ∃ t ∈ cs, u = t ∨ u ∈ t.children := by
  simp only [shown] at h
  split at h
  all_goals
    grind [assigned, mem_of_mem_argumentsAt, mem_of_mem_flattened, List.mem_of_mem_drop,
      List.mem_of_getElem?]

theorem below_of_mem_shown {t u : Tree} (h : u ∈ t.shown) : Below u t := by
  cases t with
  | atom a => cases h
  | node tag line cs =>
    obtain ⟨t, mem, rfl | inner⟩ := mem_of_mem_shown h
    · exact below_of_mem tag line mem
    · exact .tail (.single inner) mem

/-- A tree has a text exactly if no block without one is shown in it. -/
theorem readable_iff (t : Tree) : t.Readable ↔ ∀ u, t.Shows u → ¬ u.LacksParameters :=
  iff_forall_of_step below_of_mem_shown readable_step t

theorem Shows.hasPart {t u : Tree} (h : t.Shows u) : t.HasPart u := by
  induction h with
  | refl => exact .refl
  | tail _ step ih => exact ih.trans (hasPart_of_below (below_of_mem_shown step))

theorem Lists.hasPart {t u : Tree} (h : t.Lists u) : t.HasPart u := by
  induction h with
  | refl => exact .refl
  | tail _ step ih => exact ih.trans (.single (mem_children_of_mem_listed step))

end Tree

end CodeSmell
