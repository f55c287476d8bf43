import CodeSmell.Proofs.Groups
import CodeSmell.Proofs.Readings
import CodeSmell.Proofs.Scopes

/-!
# How an examination ends

A tree of improper shape is refused, and the report stays as it was. Any other tree is walked, and
what the walk takes for granted holds: the slots in front of the body of each scope are there
(`Tree.SlotsInRange`), and each name that is used most has lines (`Progress.LinesKnown`). Only a
missing text can end the walk early. `Tree.NeedsMissingText` says when that happens, and
`examination_outcome` says that nothing else can: the report then keeps the warnings about the
scopes completed so far. Where every multiple assignment has targets no text is missing, and the
examination comes to its end (`examination_completes`).
-/

set_option autoImplicit false

namespace CodeSmell

namespace Tree

/-! ## Shape -/

/-- The defect of a tree, its children's own defects aside. -/
def ownDefect? : Tree → Option Defect
  | .node tag _ cs => defect? tag cs
  | .atom _ => none

theorem malformedAmong?_eq_none_iff (ts : List Tree) :
    malformedAmong? ts = none ↔ ∀ t ∈ ts, t.malformed? = none := by
  induction ts with
  | nil => simp [malformedAmong?]
  | cons t ts ih => simp [malformedAmong?, ih]

theorem malformed?_step (t : Tree) :
    t.malformed? = none ↔ t.ownDefect? = none ∧ ∀ u, u ∈ t.children → u.malformed? = none := by
  cases t with
  | atom a => simp [malformed?, ownDefect?, children]
  | node tag line cs =>
    rw [malformed?, ownDefect?, children, ← malformedAmong?_eq_none_iff]
    cases defect? tag cs <;> simp

/-- A tree is of proper shape exactly if none of its parts has a defect. -/
theorem malformed?_eq_none_iff (t : Tree) :
    t.malformed? = none ↔ ∀ u, t.HasPart u → u.ownDefect? = none :=
  iff_forall_of_step .single malformed?_step t

/-- A node without a defect has the slots in front of the body of its scope. -/
theorem bodyStart_le_length {t : Tree} {kind : ScopeKind} (proper : t.ownDefect? = none)
    (found : t.scopeKind? = some kind) : bodyStart kind ≤ t.children.length := by
  unfold scopeKind? at found
  split at found
  all_goals cases found
  case h_1 line cs =>
    -- a missing name is a defect
    cases cs with
    | nil => simp [ownDefect?, defect?] at proper
    | cons name body => simp [bodyStart, children]
  all_goals grind [ownDefect?, defect?, bodyStart, children]

theorem validate_eq_ok_iff {t : Tree} : validate (some t) = .ok () ↔ t.malformed? = none := by
  cases found : t.malformed? <;> simp [validate, found]

/-! ## Texts that the walk needs -/

/-- A tree that is noted as a call by its text, if it is one. -/
def signed : Tree → List Tree
  | .atom _ => []
  | .node tag line cs =>
    match tag with
    | .known .call | .known .attrasgn =>
      if isEmptyAt cs 0 && (argumentsAt cs 2).isEmpty then [] else [.node tag line cs]
    | .known .fcall => if (argumentsAt cs 1).isEmpty then [] else [.node tag line cs]
    | .known .iter | .known .opAsgn1 | .known .match2 | .known .match3 => [.node tag line cs]
    | _ => []

/-- The tree whose text names the scope that a node opens, if there is one. -/
def naming : Tree → List Tree
  | .node (.known .moduleDef) _ cs | .node (.known .classDef) _ cs => cs[0]?.toList
  | .node (.known .defs) _ cs => (nodeAt? cs 0).toList.filter (!hasTag .self ·)
  | _ => []

/-- The trees whose texts are needed when the walk comes to a tree. -/
def needed (t : Tree) : List Tree := t.signed ++ t.naming

theorem yields_renderAt (cs : List Tree) (i : Nat) :
    Yields (renderAt cs i) ↔ ∀ u ∈ cs[i]?, u.Readable := by
  rw [renderAt]
  cases cs[i]? <;> simp [Readable]

theorem yields_opening_iff (t : Tree) :
    (∀ kind ∈ t.scopeKind?, Yields (t.opening kind)) ↔ ∀ u ∈ t.naming, u.Readable := by
  cases t with
  | atom a => simp [scopeKind?, naming]
  | node tag line cs =>
    cases tag with
    | other word unknown => simp [scopeKind?, naming]
    | known k =>
      cases k
      case defs =>
        simp only [scopeKind?, opening, label, naming, children]
        cases nodeAt? cs 0 <;> simp [Readable]
      all_goals simp [scopeKind?, opening, label, naming, yields_renderAt, children]

end Tree

/-- The tree whose text is needed in a move, if there is one. -/
def Move.signed : Move → List Tree
  | .sign t _ => [t]
  | .note _ | .visit _ => []

namespace Tree

theorem signed_note (o : Observation) : (Move.note o).signed = [] := rfl

theorem flatMap_signed_visits (ts : List Tree) : (visits ts).flatMap Move.signed = [] := by
  rw [visits, List.flatMap_map]
  simp [Move.signed]

theorem flatMap_signed_parameterMoves (t : Tree) :
    (parameterMoves t).flatMap Move.signed = [] := by
  unfold parameterMoves
  split <;> simp [flatMap_signed_visits, Move.signed]

theorem flatMap_signed_moves (t : Tree) : t.moves.flatMap Move.signed = t.signed := by
  cases t with
  | atom a => rfl
  | node tag line cs =>
    cases tag with
    | other word unknown => simp [moves, ownMoves, signed, flatMap_signed_visits]
    | known k =>
      -- the moves that note and visit hold nothing that is signed
      cases k
      case args => simp [moves, List.flatMap_assoc, flatMap_signed_parameterMoves, signed]
      case opAsgn =>
        simp only [moves, compoundMoves]
        split <;> simp [flatMap_note signed_note, flatMap_signed_visits, signed]
      case opAsgnOr | opAsgnAnd =>
        simp only [moves, conditionalMoves]
        split
        · split <;> simp [flatMap_note signed_note, flatMap_signed_visits, signed]
        · simp [flatMap_signed_visits, signed]
      case masgn =>
        cases cs with
        | nil => rfl
        | cons left values =>
          simp [moves, multipleMoves, targetMoves, List.flatMap_assoc, flatMap_signed_visits,
            signed]
      case call | attrasgn | fcall =>
        simp only [moves, List.flatMap_append, flatMap_ownMoves signed_note, signs, signed,
          flatMap_signed_visits, List.append_nil]
        split <;> rfl
      all_goals
        simp [moves, signed, flatMap_ownMoves signed_note, signs, flatMap_signed_visits,
          Move.signed]

/-- What is done at a tree needs no missing text exactly if the needed trees have texts. -/
theorem sound_iff (t : Tree) : t.Sound ↔ ∀ u, u ∈ t.needed → u.Readable := by
  have move (m : Move) : m.Sound ↔ ∀ u ∈ m.signed, u.Readable := by
    cases m <;> simp [Move.Sound, Move.signed, Readable]
  have moves : (∀ m ∈ t.moves, m.Sound) ↔ ∀ u ∈ t.signed, u.Readable := by
    simp only [move, ← flatMap_signed_moves, List.mem_flatMap]
    grind
  rw [Sound, moves, needed, List.forall_mem_append, ← yields_opening_iff]
  rfl

/-- On the walk of a tree a text is needed in which a block without parameter text is shown. -/
def NeedsMissingText (t : Tree) : Prop :=
  ∃ x, t.Reaches x ∧ ∃ y ∈ x.needed, ∃ z, y.Shows z ∧ z.LacksParameters

/-- A fault ends the walk exactly if it needs a text that is missing. -/
theorem fault_walk_eq_none_iff (t : Tree) : t.walk.fault = none ↔ ¬ t.NeedsMissingText := by
  rw [fault_walk, faultAmong?_outline_eq_none_iff]
  simp only [sound_iff, readable_iff, NeedsMissingText]
  grind

/-- If every multiple assignment in a tree has targets, every part of the tree has a text. -/
theorem readable_of_targets {t : Tree} (targets : ∀ u, t.HasPart u → u.lacksTargets = false) :
    ∀ u, t.HasPart u → u.Readable := by
  intro u part
  rw [readable_iff]
  rintro v shows ⟨-, p, slot, q, lists, lacks⟩
  have child : p ∈ v.children := by
    rw [nodeAt?, Option.mem_def, Option.filter_eq_some_iff] at slot
    exact List.mem_of_getElem? slot.1
  have inside : t.HasPart q := ((part.trans shows.hasPart).tail child).trans lists.hasPart
  rw [targets q inside] at lacks
  cases lacks

theorem hasPart_of_mem_needed {t u : Tree} (h : u ∈ t.needed) : t.HasPart u := by
  rcases List.mem_append.1 h with h | h
  · obtain rfl : u = t := by
      unfold signed at h
      grind
    exact .refl
  · refine .single ?_
    unfold naming at h
    grind [children, nodeAt?, List.mem_of_getElem?]

/-- The walk needs no text that is missing if every multiple assignment has targets. -/
theorem not_needsMissingText {t : Tree} (targets : ∀ u, t.HasPart u → u.lacksTargets = false) :
    ¬ t.NeedsMissingText := by
  rintro ⟨x, reaches, y, needed, z, shows, lacks⟩
  have part : t.HasPart y := reaches.hasPart.trans (hasPart_of_mem_needed needed)
  exact (readable_iff y).1 (readable_of_targets targets y part) z shows lacks

end Tree

/-! ## Ranges -/

/-- The slots in front of the body of each scope that the walk opens are there. -/
def Tree.SlotsInRange (t : Tree) : Prop :=
  ∀ u kind, t.Reaches u → u.scopeKind? = some kind → Tree.bodyStart kind ≤ u.children.length

theorem Tree.slotsInRange {t : Tree} (proper : t.malformed? = none) : t.SlotsInRange := by
  intro u kind reaches found
  exact bodyStart_le_length ((malformed?_eq_none_iff t).1 proper u reaches.hasPart) found

/-- Every name that is used in a scope has a line on which it is. -/
def Scope.HasLines (s : Scope) : Prop := ∀ r ∈ s.facts.references, r.2 ≠ []

theorem Scope.hasLines_note {s : Scope} (h : s.HasLines) (o : Observation) :
    (s.note o).HasLines := by
  cases o
  case reference name line => exact Groups.ne_nil_of_mem_add h name line
  all_goals exact h

theorem Scope.HasLines.get_ne_nil {s : Scope} (h : s.HasLines) {name : Text}
    (popular : name ∈ s.facts.references.mostPopular) : s.facts.references.get name ≠ [] := by
  refine Groups.get_ne_nil h ?_
  obtain ⟨r, mem, rfl⟩ := List.mem_map.1 popular
  exact List.mem_map_of_mem (List.mem_of_mem_filter mem)

/-- The names that are used most in the scopes of a run have lines. -/
def Progress.LinesKnown (p : Progress) : Prop :=
  ∀ chain ∈ p.completed, ∀ s ∈ chain, ∀ name ∈ s.facts.references.mostPopular,
    s.facts.references.get name ≠ []

theorem Tree.linesKnown_walk (t : Tree) : t.walk.LinesKnown := by
  have opened (o : Opening) (chain : Chain) : (o.scopeIn chain).HasLines := nofun
  have root : ∀ s ∈ [Scope.root], s.HasLines := by
    intro s mem
    rw [List.mem_singleton.1 mem]
    exact nofun
  have noted (s : Scope) (o : Observation) (h : s.HasLines) : (s.note o).HasLines :=
    Scope.hasLines_note h o
  have known := (Item.forall_mem_runAll opened noted t.outline root).2
  intro chain completed s mem name popular
  exact (known chain completed s mem).get_ne_nil popular

/-! ## How an examination ends -/

/-- How the examination of a tree ends. The report stays as it was if the tree is refused. It gains
the warnings about the completed scopes otherwise, and these are not all that there are if a text is
missing on the way. -/
theorem examination_outcome (settings : Settings) (source : Text) (report : List Warning)
    (t : Tree) :
    (∃ m, Tree.validate (some t) = .error m ∧
      t.examineInto settings source report = (report, some (.malformed m))) ∨
    (Tree.validate (some t) = .ok () ∧ t.SlotsInRange ∧ t.walk.LinesKnown ∧
      ∃ fault, t.examineInto settings source report
          = (report ++ warningsAbout settings source t.walk.completed, fault) ∧
        (¬ t.NeedsMissingText ∧ fault = none ∨
          t.NeedsMissingText ∧ fault = some (.render .noParameterList))) := by
  unfold Tree.examineInto
  cases shape : t.malformed? with
  | some m =>
    have rejected : Tree.validate (some t) = .error m := by rw [Tree.validate, shape]
    exact Or.inl ⟨m, rejected, by rw [rejected]⟩
  | none =>
    have accepted : Tree.validate (some t) = .ok () := Tree.validate_eq_ok_iff.2 shape
    refine Or.inr ⟨accepted, Tree.slotsInRange shape, t.linesKnown_walk,
      t.walk.fault.map .render, ?_, ?_⟩
    · rw [accepted]
    · cases fault : t.walk.fault with
      | none => exact Or.inl ⟨(Tree.fault_walk_eq_none_iff t).1 fault, rfl⟩
      | some f =>
        -- there is only one kind of fault
        cases f
        refine Or.inr ⟨?_, rfl⟩
        by_contra complete
        rw [(Tree.fault_walk_eq_none_iff t).2 complete] at fault
        cases fault

/-- A class that assumes a variable, followed by a block whose parameters are a bare multiple
assignment. -/
def assumingThenBare : Tree :=
  .known .block 1 [
    .known .classDef 1 [.atom (.sym "Basket"), .atom .nil,
      .known .defn 2 [.atom (.sym "total"), .known .ivar 3 [.atom (.sym "@sum")]]],
    .known .iter 5 [.known .fcall 5 [.atom (.sym "each")], .known .masgn 5 []]]

set_option maxRecDepth 4000 in
/-- A tree of proper shape whose examination breaks off and leaves a warning in the report. -/
theorem assumingThenBare_breaks_off :
    Tree.validate (some assumingThenBare) = .ok () ∧
      (assumingThenBare.examineInto {} "basket" []).1.length = 1 ∧
      (assumingThenBare.examineInto {} "basket" []).2 = some (.render .noParameterList) :=
  ⟨rfl, rfl, rfl⟩

/-- A tree of proper shape in which every multiple assignment has a node for its targets is examined
to the end, whatever the settings are. All slots that are left out are there, every part of the tree
has a text, and every name that is used most has lines. -/
theorem examination_completes (settings : Settings) (source : Text) (report : List Warning)
    (t : Tree) (valid : Tree.validate (some t) = .ok ())
    (targets : ∀ u, t.HasPart u → u.hasTag .masgn → (Tree.nodeAt? u.children 0).isSome) :
    t.examineInto settings source report
        = (report ++ warningsAbout settings source t.walk.completed, none) ∧
      t.SlotsInRange ∧ (∀ u, t.HasPart u → ∃ text, u.render = .ok text) ∧ t.walk.LinesKnown := by
  have free (u : Tree) (part : t.HasPart u) : u.lacksTargets = false :=
    Tree.lacksTargets_eq_false_iff.2 (targets u part)
  have complete : t.walk.fault = none :=
    (Tree.fault_walk_eq_none_iff t).2 (Tree.not_needsMissingText free)
  refine ⟨?_, Tree.slotsInRange (Tree.validate_eq_ok_iff.1 valid), Tree.readable_of_targets free,
    t.linesKnown_walk⟩
  rw [Tree.examineInto, valid, complete]
  rfl

/-- A class with a method that goes through pairs, takes their second parts apart as well, and uses
what it goes through more than itself. -/
def pairsClass : Tree :=
  let name (text : String) := Tree.atom (.sym text)
  let range := Tree.known .array 3 [.known .lasgn 3 [name "low"], .known .lasgn 3 [name "high"]]
  .known .classDef 1 [name "Basket", .atom .nil,
    .known .defn 2 [name "merge", .known .args 2 [name "other"],
      .known .iter 3 [.known .call 3 [.known .lvar 3 [name "other"], name "each"],
        .known .masgn 3 [.known .array 3 [.known .lasgn 3 [name "key"], .known .masgn 3 [range]]],
        .known .attrasgn 4 [.known .ivar 4 [name "@items"], name "[]=",
          .known .arglist 4 [.known .lvar 4 [name "key"], .known .lvar 4 [name "low"]]]],
      .known .call 5 [.known .lvar 5 [name "other"], name "clear"]]]

set_option maxRecDepth 4000 in
/-- The class is examined to the end with two warnings: about the method and about the variable. -/
theorem pairsClass_completes :
    Tree.validate (some pairsClass) = .ok () ∧
      (∀ u, pairsClass.HasPart u → u.hasTag .masgn → (Tree.nodeAt? u.children 0).isSome) ∧
      pairsClass.examineInto {} "basket" []
        = ([] ++ warningsAbout {} "basket" pairsClass.walk.completed, none) ∧
      (warningsAbout {} "basket" pairsClass.walk.completed).length = 2 := by
  have targets (u : Tree) :
      pairsClass.HasPart u → u.hasTag .masgn → (Tree.nodeAt? u.children 0).isSome := by
    revert u
    simp [pairsClass, Tree.hasPart_node_iff, Tree.hasPart_atom_iff, or_imp, forall_and, Tree.hasTag,
      Tree.nodeAt?, Tree.children, Tree.isNode]
  exact ⟨rfl, targets, (examination_completes {} "basket" [] pairsClass rfl targets).1, rfl⟩

end CodeSmell
