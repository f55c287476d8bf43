import CodeSmell.Proofs.Completion

/-!
# Trees with other lines

`Tree.mapLines` applies a function to the line of every node of a tree. Neither the shape of a tree
nor any text that is made from it depends on its lines (`Tree.malformed?_mapLines`,
`Tree.render_mapLines`), and the walk makes the same moves at each node, with the lines in what is
noted replaced along with those of the nodes (`Tree.moves_mapLines`).
-/

set_option autoImplicit false

namespace CodeSmell

/-! ## Trees with other lines -/

mutual

/-- The tree with a function applied to the line of every node. -/
def Tree.mapLines (f : Int → Int) : Tree → Tree
  | .node tag line cs => .node tag (f line) (Tree.mapLinesAll f cs)
  | .atom a => .atom a

/-- The trees with a function applied to the line of every node. -/
def Tree.mapLinesAll (f : Int → Int) : List Tree → List Tree
  | [] => []
  | t :: ts => t.mapLines f :: Tree.mapLinesAll f ts

end

namespace Tree

variable (f : Int → Int)

theorem mapLinesAll_eq_map (ts : List Tree) : mapLinesAll f ts = ts.map (mapLines f) := by
  induction ts with
  | nil => rfl
  | cons t ts ih => rw [mapLinesAll, ih, List.map_cons]

@[simp] theorem mapLines_node (tag : Tag) (line : Int) (cs : List Tree) :
    (node tag line cs).mapLines f = .node tag (f line) (cs.map (mapLines f)) := by
  rw [mapLines, mapLinesAll_eq_map]

@[simp] theorem children_mapLines (t : Tree) :
    (t.mapLines f).children = t.children.map (mapLines f) := by
  cases t with
  | atom a => rfl
  | node tag line cs => rw [mapLines_node, children, children]

@[simp] theorem isNode_mapLines (t : Tree) : (t.mapLines f).isNode = t.isNode := by
  cases t <;> rfl

@[simp] theorem hasTag_mapLines (k : Keyword) (t : Tree) :
    (t.mapLines f).hasTag k = t.hasTag k := by
  cases t <;> rfl

@[simp] theorem isNilAtom_mapLines (t : Tree) : (t.mapLines f).isNilAtom = t.isNilAtom := by
  cases t <;> rfl

@[simp] theorem name_mapLines (t : Tree) : (t.mapLines f).name = t.name := by
  cases t <;> rfl

@[simp] theorem nameAt_mapLines (cs : List Tree) (i : Nat) :
    nameAt (cs.map (mapLines f)) i = nameAt cs i := by
  rw [nameAt, nameAt, List.getElem?_map]
  cases cs[i]? with
  | none => rfl
  | some t => exact name_mapLines f t

@[simp] theorem isEmptyAt_mapLines (cs : List Tree) (i : Nat) :
    isEmptyAt (cs.map (mapLines f)) i = isEmptyAt cs i := by
  rw [isEmptyAt, isEmptyAt, List.getElem?_map]
  cases cs[i]? with
  | none => rfl
  | some t => exact isNilAtom_mapLines f t

@[simp] theorem nodeAt?_mapLines (cs : List Tree) (i : Nat) :
    nodeAt? (cs.map (mapLines f)) i = (nodeAt? cs i).map (mapLines f) := by
  rw [nodeAt?, nodeAt?, List.getElem?_map]
  cases cs[i]? with
  | none => rfl
  | some t => cases node : t.isNode <;> simp [Option.filter, node]

@[simp] theorem arguments_mapLines (t : Tree) :
    (t.mapLines f).arguments = t.arguments.map (mapLines f) := by
  cases t with
  | atom a => rfl
  | node tag line cs =>
    cases tag with
    | other word unknown => simp [arguments]
    | known k => cases k <;> simp [arguments]

@[simp] theorem argumentsAt_mapLines (cs : List Tree) (i : Nat) :
    argumentsAt (cs.map (mapLines f)) i = (argumentsAt cs i).map (mapLines f) := by
  rw [argumentsAt, argumentsAt, List.getElem?_map]
  cases cs[i]? with
  | none => rfl
  | some t => exact arguments_mapLines f t

variable {f} in
theorem any_mapLines {p : Tree → Bool} (same : ∀ t, p (t.mapLines f) = p t) (slot : Option Tree) :
    (slot.map (mapLines f)).any p = slot.any p := by
  cases slot with
  | none => rfl
  | some t => exact same t

@[simp] theorem countStatements_mapLines (cs : List Tree) :
    countStatements (cs.map (mapLines f)) = countStatements cs := by
  simp only [countStatements, List.length_map, List.head?_map, List.getLast?_map,
    any_mapLines (hasTag_mapLines f _)]

@[simp] theorem isOperation_mapLines (t : Tree) :
    (t.mapLines f).isOperation = t.isOperation := by
  cases t with
  | atom a => rfl
  | node tag line cs =>
    cases tag with
    | other word unknown => rfl
    | known k =>
      cases k
      case call =>
        simp only [mapLines_node, isOperation, isEmptyAt_mapLines, nameAt_mapLines,
          List.getElem?_map, Option.map_map, Function.comp_def, arguments_mapLines, List.length_map]
      all_goals rfl

/-! ### Shape -/

theorem isScopeName_mapLines (t : Tree) : (t.mapLines f).isScopeName = t.isScopeName := by
  cases t with
  | atom a => rfl
  | node tag line cs =>
    cases tag with
    | other word unknown => rfl
    | known k => cases k <;> rfl

theorem ownDefect?_mapLines (t : Tree) : (t.mapLines f).ownDefect? = t.ownDefect? := by
  have named (cs : List Tree) :
      ((cs.map (mapLines f))[0]?).any isScopeName = (cs[0]?).any isScopeName := by
    rw [List.getElem?_map, any_mapLines (isScopeName_mapLines f)]
  cases t with
  | atom a => rfl
  | node tag line cs =>
    cases tag with
    | other word unknown => rfl
    | known k => cases k <;> simp only [mapLines_node, ownDefect?, defect?, named, nameAt_mapLines,
        nodeAt?_mapLines, Option.isNone_map, List.length_map]

/-- Lines do not matter to the shape of a tree. -/
theorem malformed?_mapLines (t : Tree) :
    (t.mapLines f).malformed? = none ↔ t.malformed? = none := by
  induction t using below_induction with
  | step t ih =>
    rw [malformed?_step, malformed?_step t, ownDefect?_mapLines, children_mapLines]
    refine and_congr_right fun _ => ?_
    constructor
    · intro all u mem
      exact (ih u (.single mem)).1 (all _ (List.mem_map_of_mem mem))
    · intro all u mem
      obtain ⟨v, below, rfl⟩ := List.mem_map.1 mem
      exact (ih v (.single below)).2 (all v below)

end Tree

/-! ## Texts -/

namespace Annotated

variable {α : Type} (f : Int → Int)

mutual

/-- The annotated tree with a function applied to the lines. The values stay. -/
def mapLines : Annotated α → Annotated α
  | mk t value parts => mk (t.mapLines f) value (mapLinesAll parts)

/-- The annotated trees with a function applied to the lines. -/
def mapLinesAll : List (Annotated α) → List (Annotated α)
  | [] => []
  | a :: as => mapLines a :: mapLinesAll as

end

theorem mapLinesAll_eq_map (as : List (Annotated α)) : mapLinesAll f as = as.map (mapLines f) := by
  induction as with
  | nil => rfl
  | cons a as ih => rw [mapLinesAll, ih, List.map_cons]

@[simp] theorem tree_mapLines (a : Annotated α) : (a.mapLines f).tree = a.tree.mapLines f := by
  cases a
  rfl

@[simp] theorem value_mapLines (a : Annotated α) : (a.mapLines f).value = a.value := by
  cases a
  rfl

@[simp] theorem parts_mapLines (a : Annotated α) :
    (a.mapLines f).parts = a.parts.map (mapLines f) := by
  cases a
  exact mapLinesAll_eq_map f _

end Annotated

namespace Sketch

variable (f : Int → Int)

@[simp] theorem text_mapLines (s : Sketch) : Sketch.text (s.mapLines f) = s.text := by
  simp [Sketch.text]

@[simp] theorem operand_mapLines (s : Sketch) : Sketch.operand (s.mapLines f) = s.operand := by
  simp [operand]

@[simp] theorem arguments_mapLines (s : Sketch) :
    Sketch.arguments (s.mapLines f) = s.arguments.map (Annotated.mapLines f) := by
  unfold arguments
  rw [Annotated.tree_mapLines, Annotated.parts_mapLines]
  cases s.tree with
  | atom a => rfl
  | node tag line cs =>
    cases tag with
    | other word unknown => rfl
    | known k => cases k <;> rfl

@[simp] theorem target_mapLines (s : Sketch) : Sketch.target (s.mapLines f) = s.target := by
  unfold target
  rw [Annotated.tree_mapLines, text_mapLines]
  cases s.tree with
  | atom a => rfl
  | node tag line cs =>
    cases tag with
    | other word unknown => rfl
    | known k => cases k <;> simp

variable (parts : List Sketch)

@[simp] theorem textAt_mapLines (i : Nat) :
    textAt (parts.map (Annotated.mapLines f)) i = textAt parts i := by
  simp [textAt, Function.comp_def]

@[simp] theorem operandAt_mapLines (i : Nat) :
    operandAt (parts.map (Annotated.mapLines f)) i = operandAt parts i := by
  simp [operandAt, Function.comp_def]

@[simp] theorem targetAt_mapLines (i : Nat) :
    targetAt (parts.map (Annotated.mapLines f)) i = targetAt parts i := by
  simp [targetAt, Function.comp_def]

@[simp] theorem argumentsAt_mapLines (i : Nat) :
    Sketch.argumentsAt (parts.map (Annotated.mapLines f)) i
      = (Sketch.argumentsAt parts i).map (Annotated.mapLines f) := by
  rw [argumentsAt, argumentsAt, List.getElem?_map]
  cases parts[i]? <;> simp

@[simp] theorem nameAt_mapLines (i : Nat) :
    Sketch.nameAt (parts.map (Annotated.mapLines f)) i = Sketch.nameAt parts i := by
  have trees : (parts.map (Annotated.mapLines f)).map Annotated.tree
      = (parts.map Annotated.tree).map (Tree.mapLines f) := by
    simp [Function.comp_def]
  rw [nameAt, nameAt, trees, Tree.nameAt_mapLines]

theorem mapM_mapLines {β : Type} {g : Sketch → Except RenderFault β}
    (same : ∀ s, g (s.mapLines f) = g s) :
    (parts.map (Annotated.mapLines f)).mapM g = parts.mapM g := by
  induction parts with
  | nil => rfl
  | cons s parts ih => rw [List.map_cons, List.mapM_cons, List.mapM_cons, same, ih]

@[simp] theorem joined_mapLines (separator : String) :
    joined separator (parts.map (Annotated.mapLines f)) = joined separator parts := by
  rw [joined, joined, mapM_mapLines f parts (text_mapLines f)]

@[simp] theorem list_mapLines : list (parts.map (Annotated.mapLines f)) = list parts :=
  joined_mapLines f parts ", "

end Sketch

namespace Tree

variable (f : Int → Int)

theorem parameters_mapLines {ts : List Tree}
    (each : ∀ t ∈ ts, (t.mapLines f).parameter = t.parameter) :
    Tree.parameters (ts.map (mapLines f)) = Tree.parameters ts := by
  induction ts with
  | nil => rfl
  | cons t ts ih =>
    obtain ⟨first, later⟩ := List.forall_mem_cons.1 each
    rw [List.map_cons, Tree.parameters, Tree.parameters, first, ih later]

theorem parameter_mapLines (t : Tree) : (t.mapLines f).parameter = t.parameter := by
  induction t using below_induction with
  | step t ih =>
    cases t with
    | atom a => rfl
    | node tag line cs =>
      have all := parameters_mapLines f fun u mem => ih u (below_of_mem tag line mem)
      cases tag with
      | other word unknown => simp [Tree.parameter, all]
      | known k =>
        cases k
        case masgn =>
          cases cs with
          | nil => rfl
          | cons first rest =>
            have here := ih first (below_of_mem _ line List.mem_cons_self)
            simp [Tree.parameter, here]
        all_goals simp [Tree.parameter, all]

end Tree

section NodeText

open Sketch

variable (f : Int → Int) (parts : List Sketch)

theorem callText_mapLines (receiver : Option Sketch) (method : Text) (args : List Sketch) :
    callText (receiver.map (Annotated.mapLines f)) method (args.map (Annotated.mapLines f))
      = callText receiver method args := by
  have plain : callText.withArguments method (args.map (Annotated.mapLines f))
      = callText.withArguments method args := by
    simp [callText.withArguments]
  have operands := mapM_mapLines f args (operand_mapLines f)
  have front : list (args.map (Annotated.mapLines f)).dropLast = list args.dropLast := by
    rw [← List.map_dropLast, list_mapLines]
  have last : list (args.map (Annotated.mapLines f)).getLast?.toList
      = list args.getLast?.toList := by
    rw [List.getLast?_map, Option.toList_map, list_mapLines]
  unfold callText
  cases receiver with
  | none => exact plain
  | some r =>
    rw [Option.map_some, Option.filter_some, Option.filter_some, Annotated.tree_mapLines,
      Tree.isNilAtom_mapLines, List.length_map, plain, operands, front, last]
    cases r.tree.isNilAtom with
    | true => rfl
    | false =>
      cases CallStyle.ofMethod method args.length <;> simp

theorem blockText_mapLines :
    blockText (parts.map (Annotated.mapLines f)) = blockText parts := by
  have trees : (parts.map (Annotated.mapLines f)).map Annotated.tree
      = (parts.map Annotated.tree).map (Tree.mapLines f) := by
    simp [Function.comp_def]
  have parameters : blockText.parameters (parts.map (Annotated.mapLines f))
      = blockText.parameters parts := by
    rw [blockText.parameters, blockText.parameters, trees, Tree.nodeAt?_mapLines]
    cases Tree.nodeAt? (parts.map Annotated.tree) 1 with
    | none => rfl
    | some t => simp [Tree.parameter_mapLines]
  have body : blockText.body (parts.map (Annotated.mapLines f)) = blockText.body parts := by
    simp [blockText.body, ← List.map_drop]
  simp [blockText, parameters, body]

theorem conditional_mapLines (operator : String) :
    nodeText.conditional (parts.map (Annotated.mapLines f)) operator
      = nodeText.conditional parts operator := by
  rw [nodeText.conditional, nodeText.conditional, List.getElem?_map, targetAt_mapLines]
  cases parts[1]? <;> simp

/-- A node reads the same whatever the lines in it are. -/
theorem nodeText_mapLines (tag : Tag) :
    nodeText tag (parts.map (Annotated.mapLines f)) = nodeText tag parts := by
  have texts := mapM_mapLines f parts (text_mapLines f)
  cases tag with
  | other word unknown => simp [nodeText, texts]
  | known k =>
    cases k
    case call | attrasgn => simp [nodeText, callText_mapLines]
    case fcall =>
      have call := callText_mapLines f none (Sketch.nameAt parts 0) (Sketch.argumentsAt parts 1)
      simpa [nodeText] using call
    case iter => exact blockText_mapLines f parts
    case opAsgnOr | opAsgnAnd => exact conditional_mapLines f parts _
    case lit =>
      simp only [nodeText, List.getElem?_map, textAt_mapLines]
      rcases parts[0]? with _ | ⟨t, value, below⟩
      · rfl
      · cases t with
        | node tag line cs => rfl
        | atom a => cases a <;> rfl
    case masgn | «if» =>
      simp only [nodeText, List.getElem?_map, textAt_mapLines, argumentsAt_mapLines, list_mapLines]
      rcases parts[_]? <;> simp
    case yield | super | «return» =>
      rcases parts with _ | ⟨first, _ | ⟨second, rest⟩⟩
      · rfl
      · have single := list_mapLines f [first]
        by_cases flat : first.tree.hasTag .arglist || first.tree.hasTag .array <;>
          simp_all [nodeText]
      · have several := list_mapLines f (first :: second :: rest)
        simp only [nodeText, List.map_cons] at several ⊢
        simp [several]
    all_goals simp [nodeText, texts]

end NodeText

namespace Tree

variable (f : Int → Int)

theorem sketch_mapLines (t : Tree) : (t.mapLines f).sketch = t.sketch.mapLines f := by
  induction t using below_induction with
  | step t ih =>
    cases t with
    | atom a => rfl
    | node tag line cs =>
      have parts : (cs.map (mapLines f)).map sketch
          = (cs.map sketch).map (Annotated.mapLines f) := by
        rw [List.map_map, List.map_map]
        exact List.map_congr_left fun u mem => ih u (below_of_mem tag line mem)
      have sketched (line : Int) (cs : List Tree) : (node tag line cs).sketch
          = .mk (.node tag line cs) (nodeText tag (cs.map sketch)) (cs.map sketch) := by
        rw [sketch, annotate, annotateAll_eq_map]
        rfl
      rw [mapLines_node, sketched, sketched, parts, nodeText_mapLines, Annotated.mapLines,
        mapLines_node, Annotated.mapLinesAll_eq_map]

/-- A tree reads the same whatever its lines are. -/
@[simp] theorem render_mapLines (t : Tree) : (t.mapLines f).render = t.render := by
  rw [render, sketch_mapLines, Sketch.text_mapLines, render]

end Tree

/-! ## What is observed -/

/-- The observation with a function applied to its line, if it has one. -/
def Observation.mapLines (f : Int → Int) : Observation → Observation
  | .call c => .call { c with line := f c.line }
  | .reference name line => .reference name (f line)
  | .instanceVariable name access line => .instanceVariable name access (f line)
  | .useOfSelf => .useOfSelf
  | .dependsOnSelf => .dependsOnSelf
  | .parameter name => .parameter name
  | .local name => .local name
  | .statements count => .statements count

/-- The move with a function applied to the lines. -/
def Move.mapLines (f : Int → Int) : Move → Move
  | .note o => .note (o.mapLines f)
  | .sign t method => .sign (t.mapLines f) method
  | .visit t => .visit (t.mapLines f)

namespace Tree

variable (f : Int → Int)

theorem visits_mapLines (ts : List Tree) :
    visits (ts.map (mapLines f)) = (visits ts).map (Move.mapLines f) := by
  simp [visits, Move.mapLines]

theorem receiverNotes_mapLines (receiver : Option Tree) (method : Text) (line : Int) :
    receiverNotes (receiver.map (mapLines f)) method (f line)
      = (receiverNotes receiver method line).map (Observation.mapLines f) := by
  rcases receiver with _ | _ | _
  · rfl
  · rename_i tag _ cs
    cases tag with
    | other word unknown => rfl
    | known k =>
      cases k
      case lvar | dvar | lasgn =>
        simp only [Option.map_some, mapLines_node, receiverNotes, nameAt_mapLines]
        split <;> rfl
      all_goals rfl
  · rfl

theorem callMoves_mapLines (tag : Tag) (line : Int) (cs : List Tree) :
    callMoves (.node tag (f line) (cs.map (mapLines f)))
      = (callMoves (.node tag line cs)).map (Move.mapLines f) := by
  have receiver := receiverNotes_mapLines f cs[0]? (nameAt cs 1) line
  by_cases missing : isEmptyAt cs 0
  · by_cases none : argumentsAt cs 2 = [] <;>
      simp [callMoves, children, missing, none, Move.mapLines, Observation.mapLines]
  · simp [callMoves, children, Tree.line, missing, receiver, Move.mapLines]

theorem selfCallMoves_mapLines (tag : Tag) (line : Int) (cs : List Tree) :
    selfCallMoves (.node tag (f line) (cs.map (mapLines f)))
      = (selfCallMoves (.node tag line cs)).map (Move.mapLines f) := by
  by_cases none : argumentsAt cs 1 = [] <;>
    simp [selfCallMoves, children, none, Move.mapLines, Observation.mapLines]

theorem targetMoves_mapLines (t : Tree) :
    targetMoves (t.mapLines f) = (targetMoves t).map (Move.mapLines f) := by
  rw [targetMoves, targetMoves, hasTag_mapLines, children_mapLines, ← visits_mapLines]
  split <;> rfl

theorem parameterMoves_mapLines (t : Tree) :
    parameterMoves (t.mapLines f) = (parameterMoves t).map (Move.mapLines f) := by
  cases t with
  | atom a => rfl
  | node tag line cs =>
    cases tag with
    | other word unknown => simp [parameterMoves, Move.mapLines]
    | known k =>
      cases k <;> simp [parameterMoves, Move.mapLines, Observation.mapLines, visits_mapLines]

theorem compoundNotes?_mapLines (line : Int) (t : Tree) :
    compoundNotes? (f line) (t.mapLines f)
      = (compoundNotes? line t).map (List.map (Observation.mapLines f)) := by
  cases t with
  | atom a => rfl
  | node tag l cs =>
    cases tag with
    | other word unknown => rfl
    | known k => cases k <;> simp [compoundNotes?, Observation.mapLines]

theorem conditionalNotes?_mapLines (line : Int) (t : Tree) :
    conditionalNotes? (f line) (t.mapLines f)
      = (conditionalNotes? line t).map (List.map (Observation.mapLines f)) := by
  cases t with
  | atom a => rfl
  | node tag l cs =>
    cases tag with
    | other word unknown => rfl
    | known k => cases k <;> simp [conditionalNotes?, Observation.mapLines]

theorem compoundMoves_mapLines (line : Int) (cs : List Tree) :
    compoundMoves (f line) (cs.map (mapLines f))
      = (compoundMoves line cs).map (Move.mapLines f) := by
  cases cs with
  | nil => rfl
  | cons target values =>
    simp only [compoundMoves, List.map_cons, List.getElem?_cons_zero, Option.bind_some,
      compoundNotes?_mapLines]
    cases compoundNotes? line target with
    | none => exact visits_mapLines f (target :: values)
    | some os => simp [visits_mapLines, Move.mapLines]

theorem conditionalMoves_mapLines (line : Int) (cs : List Tree) :
    conditionalMoves (f line) (cs.map (mapLines f))
      = (conditionalMoves line cs).map (Move.mapLines f) := by
  rw [conditionalMoves, conditionalMoves, List.getElem?_map]
  cases cs[1]? with
  | none => exact visits_mapLines f cs
  | some assignment =>
    simp only [Option.map_some, conditionalNotes?_mapLines, children_mapLines]
    cases conditionalNotes? line assignment with
    | none => exact visits_mapLines f cs
    | some os => simp [visits_mapLines, Move.mapLines]

theorem multipleMoves_mapLines (cs : List Tree) :
    multipleMoves (cs.map (mapLines f)) = (multipleMoves cs).map (Move.mapLines f) := by
  cases cs with
  | nil => rfl
  | cons left values =>
    rw [List.map_cons, multipleMoves, multipleMoves, List.map_append, visits_mapLines,
      children_mapLines, List.flatMap_map, List.map_flatMap]
    simp only [targetMoves_mapLines]

theorem calledMethod_mapLines (t : Tree) : (t.mapLines f).calledMethod = t.calledMethod := by
  cases t with
  | atom a => rfl
  | node tag line cs =>
    cases tag with
    | other word unknown => rfl
    | known k => cases k <;> simp [calledMethod]

theorem ownMoves_mapLines (tag : Tag) (line : Int) (cs : List Tree) :
    ownMoves tag (f line) (cs.map (mapLines f)) = (ownMoves tag line cs).map (Move.mapLines f) := by
  cases tag with
  | other word unknown => rfl
  | known k =>
    cases k <;>
      simp [ownMoves, callMoves_mapLines, selfCallMoves_mapLines, receiverNotes_mapLines,
        Move.mapLines, Observation.mapLines]

/-- The walk makes the same moves whatever the lines are. -/
theorem moves_mapLines (t : Tree) : (t.mapLines f).moves = t.moves.map (Move.mapLines f) := by
  cases t with
  | atom a => rfl
  | node tag line cs =>
    rw [mapLines_node]
    cases tag with
    | other word unknown => simp [moves, ownMoves_mapLines, visits_mapLines]
    | known k =>
      cases k
      case iter =>
        have called : (cs[0]?.map (mapLines f)).map calledMethod = cs[0]?.map calledMethod := by
          simp [Function.comp_def, calledMethod_mapLines]
        simp [moves, visits_mapLines, ← List.map_take, called, Move.mapLines]
      case args => simp [moves, List.flatMap_map, List.map_flatMap, parameterMoves_mapLines]
      all_goals
        simp [moves, ownMoves_mapLines, visits_mapLines, compoundMoves_mapLines,
          conditionalMoves_mapLines, multipleMoves_mapLines]

end Tree

end CodeSmell
