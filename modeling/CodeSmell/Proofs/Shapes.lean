import CodeSmell.Proofs.Completion

/-!
# The first defect of a tree

`Tree.Shaped` says what the children of a node with a given tag have to be, as a pattern for each
tag, and `Tree.nodes` lists the nodes of a tree in pre-order. The check of a tree accepts it exactly
if all nodes are shaped so. Otherwise it reports the first node in pre-order that is not, with the
tag and the line of that node and the wording for its tag (`Tree.validate_first`).
-/

set_option autoImplicit false

namespace CodeSmell

namespace Tree

/-! ## Nodes in pre-order -/

mutual

/-- The nodes of a tree, outer ones before inner ones and left before right. -/
def nodes : Tree → List Tree
  | .node tag line cs => .node tag line cs :: nodesAmong cs
  | .atom _ => []

/-- The nodes of several trees. -/
def nodesAmong : List Tree → List Tree
  | [] => []
  | t :: ts => nodes t ++ nodesAmong ts

end

theorem nodesAmong_eq_flatMap (ts : List Tree) : nodesAmong ts = ts.flatMap nodes := by
  induction ts with
  | nil => rfl
  | cons t ts ih => rw [nodesAmong, ih, List.flatMap_cons]

/-- All parts of a tree that are nodes are listed. -/
theorem mem_nodes_iff (t u : Tree) : u ∈ t.nodes ↔ t.HasPart u ∧ u.isNode = true := by
  induction t using below_induction with
  | step t ih =>
    cases t with
    | atom a =>
      rw [nodes, hasPart_atom_iff]
      constructor
      · intro mem
        cases mem
      · rintro ⟨rfl, isNode⟩
        cases isNode
    | node tag line cs =>
      rw [nodes, nodesAmong_eq_flatMap, List.mem_cons, List.mem_flatMap, hasPart_node_iff]
      constructor
      · rintro (rfl | ⟨c, listed, mem⟩)
        · exact ⟨Or.inl rfl, rfl⟩
        · obtain ⟨part, isNode⟩ := (ih c (below_of_mem tag line listed)).1 mem
          exact ⟨Or.inr ⟨c, listed, part⟩, isNode⟩
      · rintro ⟨same | ⟨c, listed, part⟩, isNode⟩
        · exact Or.inl same
        · exact Or.inr ⟨c, listed, (ih c (below_of_mem tag line listed)).2 ⟨part, isNode⟩⟩

/-! ## Shapes -/

/-- What can name a module or a class. -/
inductive NamesScope : Tree → Prop
  | sym {name : String} : name ≠ "" → NamesScope (.atom (.sym name))
  | const (line : Int) (cs : List Tree) : NamesScope (.known .const line cs)
  | colon2 (line : Int) (cs : List Tree) : NamesScope (.known .colon2 line cs)

/-- What can name a method: an atom with a text. -/
inductive NamesMethod : Tree → Prop
  | atom {a : Atom} : a.text ≠ [] → NamesMethod (.atom a)

/-- The children that a node with a given tag has to have. -/
def ShapeOf (tag : Tag) (cs : List Tree) : Prop :=
  match tag with
  | .known .moduleDef => ∃ name body, cs = name :: body ∧ NamesScope name
  | .known .classDef => ∃ name parent body, cs = name :: parent :: body ∧ NamesScope name
  | .known .defn => ∃ name first body, cs = name :: first :: body ∧ NamesMethod name
  | .known .defs => ∃ receiver name first body, cs = receiver :: name :: first :: body ∧
      receiver.isNode = true ∧ NamesMethod name
  | .known .iter => ∃ call parameters body, cs = call :: parameters :: body ∧ call.isNode = true
  | .known .call | .known .attrasgn =>
    ∃ receiver name args, cs = receiver :: name :: args ∧ NamesMethod name
  | .known .fcall | .known .vcall => ∃ name args, cs = name :: args ∧ NamesMethod name
  | _ => True

/-- A tree whose own children are as they have to be, whatever these are like inside. -/
def Shaped : Tree → Prop
  | .node tag _ cs => ShapeOf tag cs
  | .atom _ => True

/-- How the children of a node with a given tag are complained of. -/
def complaint (tag : Tag) (cs : List Tree) : String :=
  match tag with
  | .known .moduleDef => "missing module name"
  | .known .classDef =>
    if 2 ≤ cs.length then "invalid class name" else "missing class name or superclass slot"
  | .known .defn => "missing method name or body"
  | .known .defs => "missing receiver, method name or body"
  | .known .iter => "missing block call or parameter slot"
  | .known .call | .known .attrasgn | .known .fcall | .known .vcall => "missing method name"
  | _ => ""

/-! ## Defects of single nodes -/

theorem isScopeName_iff (t : Tree) : t.isScopeName = true ↔ NamesScope t := by
  constructor
  · intro is
    unfold isScopeName at is
    split at is
    · exact .sym (of_decide_eq_true is)
    · exact .const _ _
    · exact .colon2 _ _
    · cases is
  · intro names
    cases names with
    | sym nonempty => exact decide_eq_true nonempty
    | const line cs => rfl
    | colon2 line cs => rfl

theorem name_ne_nil_iff (t : Tree) : t.name ≠ [] ↔ NamesMethod t := by
  cases t with
  | node tag line cs => exact iff_of_false (fun h => h rfl) fun names => nomatch names
  | atom a =>
    constructor
    · exact .atom
    · rintro ⟨text⟩
      exact text

/-- A node has no defect exactly if its children are as they have to be. -/
theorem defect?_eq_none_iff (tag : Tag) (cs : List Tree) :
    defect? tag cs = none ↔ ShapeOf tag cs := by
  unfold defect? ShapeOf
  -- no rule looks beyond the third slot
  rcases cs with _ | ⟨a, _ | ⟨b, _ | ⟨c, rest⟩⟩⟩
  all_goals
    split
    all_goals simp +arith [nameAt, nodeAt?, ← isScopeName_iff, ← name_ne_nil_iff, and_assoc]

/-- What is reported about a node is the complaint for its tag. -/
theorem message_of_defect? {tag : Tag} {cs : List Tree} {d : Defect}
    (found : defect? tag cs = some d) : d.message = complaint tag cs := by
  unfold defect? at found
  unfold complaint
  split at found
  all_goals grind [Defect.message]

/-- Defects are told apart by their wording. -/
theorem message_injective {d d' : Defect} (same : d.message = d'.message) : d = d' := by
  revert same
  cases d <;> cases d' <;> decide

/-- A defect with a given wording is found at a node exactly if the node is not as it has to be and
the wording is the complaint for its tag. -/
theorem defect?_eq_some_iff (tag : Tag) (cs : List Tree) (d : Defect) :
    defect? tag cs = some d ↔ ¬ ShapeOf tag cs ∧ d.message = complaint tag cs := by
  rw [← defect?_eq_none_iff]
  constructor
  · intro found
    exact ⟨by rw [found]; exact nofun, message_of_defect? found⟩
  · rintro ⟨some, wording⟩
    obtain ⟨d', found⟩ := Option.ne_none_iff_exists'.1 some
    rw [found, message_injective (wording.trans (message_of_defect? found).symm)]

/-! ## Defects of trees -/

theorem ownDefect?_eq_none_iff (t : Tree) : t.ownDefect? = none ↔ t.Shaped := by
  cases t with
  | atom a => exact iff_of_true rfl trivial
  | node tag line cs => exact defect?_eq_none_iff tag cs

/-- What is reported about a node, its children's own defects aside. -/
def report? : Tree → Option Malformed
  | .node tag line cs => (defect? tag cs).map fun d => ⟨tag.name, line, d⟩
  | .atom _ => none

theorem report?_eq_none_iff (t : Tree) : t.report? = none ↔ t.Shaped := by
  rw [← ownDefect?_eq_none_iff]
  cases t with
  | atom a => exact iff_of_true rfl rfl
  | node tag line cs => exact Option.map_eq_none_iff

theorem report?_eq_some_iff (t : Tree) (m : Malformed) :
    t.report? = some m ↔ ∃ tag line cs, t = .node tag line cs ∧ ¬ ShapeOf tag cs ∧
      m.tag = tag.name ∧ m.line = line ∧ m.defect.message = complaint tag cs := by
  cases t with
  | atom a => simp [report?]
  | node tag line cs =>
    rw [report?, Option.map_eq_some_iff]
    constructor
    · rintro ⟨d, found, rfl⟩
      obtain ⟨improper, wording⟩ := (defect?_eq_some_iff tag cs d).1 found
      exact ⟨tag, line, cs, rfl, improper, rfl, rfl, wording⟩
    · rintro ⟨_, _, _, same, improper, named, placed, wording⟩
      cases same
      refine ⟨m.defect, (defect?_eq_some_iff tag cs _).2 ⟨improper, wording⟩, ?_⟩
      rw [← named, ← placed]

/-- If the check of each of several trees looks through its nodes, so does the check of all. -/
theorem malformedAmong?_eq_findSome? {ts : List Tree}
    (each : ∀ t ∈ ts, t.malformed? = t.nodes.findSome? report?) :
    malformedAmong? ts = (nodesAmong ts).findSome? report? := by
  induction ts with
  | nil => rfl
  | cons t ts ih =>
    obtain ⟨first, others⟩ := List.forall_mem_cons.1 each
    rw [malformedAmong?, nodesAmong, List.findSome?_append, first, ih others]

/-- The check of a tree looks through its nodes in pre-order. -/
theorem malformed?_eq_findSome? (t : Tree) : t.malformed? = t.nodes.findSome? report? := by
  induction t using below_induction with
  | step t ih =>
    cases t with
    | atom a => rfl
    | node tag line cs =>
      have children : malformedAmong? cs = (nodesAmong cs).findSome? report? :=
        malformedAmong?_eq_findSome? fun c listed => ih c (below_of_mem tag line listed)
      rw [malformed?, nodes, List.findSome?_cons, report?, children]
      cases defect? tag cs <;> rfl

theorem validate_eq_error_iff (t : Tree) (m : Malformed) :
    validate (some t) = .error m ↔ t.malformed? = some m := by
  cases found : t.malformed? <;> simp [validate, found]

/-- A tree is accepted exactly if each of its nodes has the children that it has to have. Otherwise
the first node in pre-order that has not is reported, with its tag, its line and the complaint for
its tag. -/
theorem validate_first (t : Tree) :
    (validate (some t) = .ok () ↔ ∀ u, t.HasPart u → u.isNode = true → u.Shaped) ∧
      ∀ m, validate (some t) = .error m ↔
        ∃ before tag line cs after, t.nodes = before ++ .node tag line cs :: after ∧
          (∀ u ∈ before, u.Shaped) ∧ ¬ ShapeOf tag cs ∧
          m.tag = tag.name ∧ m.line = line ∧ m.defect.message = complaint tag cs := by
  constructor
  · rw [validate_eq_ok_iff, malformed?_eq_findSome?, List.findSome?_eq_none_iff]
    simp only [mem_nodes_iff, report?_eq_none_iff, and_imp]
  · intro m
    rw [validate_eq_error_iff, malformed?_eq_findSome?, List.findSome?_eq_some_iff]
    constructor
    · rintro ⟨before, u, after, order, reported, clean⟩
      obtain ⟨tag, line, cs, rfl, improper, named, placed, wording⟩ :=
        (report?_eq_some_iff u m).1 reported
      exact ⟨before, tag, line, cs, after, order,
        fun v mem => (report?_eq_none_iff v).1 (clean v mem), improper, named, placed, wording⟩
    · rintro ⟨before, tag, line, cs, after, order, clean, improper, named, placed, wording⟩
      refine ⟨before, .node tag line cs, after, order, ?_, ?_⟩
      · exact (report?_eq_some_iff _ m).2 ⟨tag, line, cs, rfl, improper, named, placed, wording⟩
      · exact fun v mem => (report?_eq_none_iff v).2 (clean v mem)

end Tree

end CodeSmell
