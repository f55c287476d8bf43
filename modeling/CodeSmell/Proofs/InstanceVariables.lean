import CodeSmell.Proofs.Groups
import CodeSmell.Proofs.Scopes

/-!
# The instance variables of a class

`Tree.ownedUses` lists by recursion on a tree the uses of instance variables that belong to the
class or module around it. A use belongs to it if it stands in a method of it and no singleton
method, class or module lies in between; blocks, conditionals and yields do not matter. To set a
variable under the condition that it is not set yet is a lazy write and no read.

The completed scope of a class or module knows exactly the uses that it owns, filed by the names of
the variables (`Tree.instanceVariables_of_isScopeOf`). All warnings about it follow from them
(`instance_variable_warnings`): one for each variable that is read and never set, and one if there
are more variables than the limit.
-/

set_option autoImplicit false

namespace CodeSmell

/-- A use of an instance variable. -/
structure VariableUse where
  name : Text
  access : Access
  line : Int
deriving DecidableEq

namespace Tree

/-- Whether a tree is an instance variable or an assignment to one. -/
def isInstanceVariable (t : Tree) : Bool := t.hasTag .ivar || t.hasTag .iasgn

/-- Uses count only inside a method. -/
def countedUses (inMethod : Bool) (uses : List VariableUse) : List VariableUse :=
  if inMethod then uses else []

/-- The uses at the target of a compound assignment to a variable. -/
def compoundUses (line : Int) (t : Tree) : List VariableUse :=
  let name := nameAt t.children 0
  if t.isInstanceVariable then [⟨name, .read, line⟩, ⟨name, .write, line⟩] else []

/-- The uses at an assignment that happens only under a condition. -/
def lazyUses (line : Int) (t : Tree) : List VariableUse :=
  if t.hasTag .iasgn then [⟨nameAt t.children 0, .lazyWrite, line⟩] else []

mutual

/-- The uses of instance variables in a tree that the class or module around it owns. The flag says
whether the tree stands in a method of it. -/
def ownedUses : Bool → Tree → List VariableUse
  | _, .atom _ => []
  | inMethod, .node (.known .ivar) line cs => countedUses inMethod [⟨nameAt cs 0, .read, line⟩]
  | inMethod, .node (.known .iasgn) line cs =>
    countedUses inMethod [⟨nameAt cs 0, .write, line⟩] ++ ownedUsesAll inMethod cs
  | _, .node (.known .opAsgn) _ [] => []
  | inMethod, .node (.known .opAsgn) line (target :: values) =>
    (if target.isVariable then countedUses inMethod (compoundUses line target)
      else ownedUses inMethod target) ++ ownedUsesAll inMethod values
  | inMethod, .node (.known .opAsgnOr) line cs => conditionalUses inMethod line cs
  | inMethod, .node (.known .opAsgnAnd) line cs => conditionalUses inMethod line cs
  | _, .node (.known .masgn) _ [] => []
  | inMethod, .node (.known .masgn) _ (left :: values) =>
    targetUses inMethod left ++ ownedUsesAll inMethod values
  | _, .node (.known .defn) _ [] => []
  | _, .node (.known .defn) _ (_ :: body) => ownedUsesAll true body
  -- these have variables of their own
  | _, .node (.known .defs) _ _ => []
  | _, .node (.known .classDef) _ _ | _, .node (.known .moduleDef) _ _ => []
  -- the walk does not go below these
  | _, .node (.known .vcall) _ _ | _, .node (.known .self) _ _ => []
  | _, .node (.known .zsuper) _ _ => []
  | inMethod, .node _ _ cs => ownedUsesAll inMethod cs

/-- The uses in several trees. -/
def ownedUsesAll : Bool → List Tree → List VariableUse
  | _, [] => []
  | inMethod, t :: ts => ownedUses inMethod t ++ ownedUsesAll inMethod ts

/-- The uses below a tree. -/
def usesBelow : Bool → Tree → List VariableUse
  | _, .atom _ => []
  | inMethod, .node _ _ cs => ownedUsesAll inMethod cs

/-- The uses in the left side of a multiple assignment. -/
def targetUses : Bool → Tree → List VariableUse
  | _, .atom _ => []
  | inMethod, .node _ _ cs => targetUsesAll inMethod cs

/-- The uses in several targets of a multiple assignment. -/
def targetUsesAll : Bool → List Tree → List VariableUse
  | _, [] => []
  | inMethod, t :: ts =>
    (if t.hasTag .attrasgn then usesBelow inMethod t else ownedUses inMethod t)
      ++ targetUsesAll inMethod ts

/-- The uses in an assignment that happens only under a condition. The variable that is asked for is
not read by that. -/
def conditionalUses : Bool → Int → List Tree → List VariableUse
  | inMethod, line, guard :: assignment :: rest =>
    if assignment.isAssignment then
      countedUses inMethod (lazyUses line assignment) ++ usesBelow inMethod assignment
    else ownedUses inMethod guard ++ ownedUses inMethod assignment ++ ownedUsesAll inMethod rest
  | inMethod, _, [guard] => ownedUses inMethod guard
  | _, _, [] => []

end

/-- The part of a class or a module that the walk goes through. That of a struct is left out. -/
def classBody? : Tree → Option (List Tree)
  | .node (.known .moduleDef) _ cs => some (cs.drop 1)
  | .node (.known .classDef) _ cs => some (if hasStructTemplate cs then [] else cs.drop 2)
  | _ => none

theorem ownedUsesAll_eq_flatMap (inMethod : Bool) (ts : List Tree) :
    ownedUsesAll inMethod ts = ts.flatMap (ownedUses inMethod) := by
  induction ts with
  | nil => rfl
  | cons t ts ih => rw [ownedUsesAll, ih, List.flatMap_cons]

theorem usesBelow_eq_flatMap (inMethod : Bool) (t : Tree) :
    usesBelow inMethod t = t.children.flatMap (ownedUses inMethod) := by
  cases t with
  | atom a => rfl
  | node tag line cs => exact ownedUsesAll_eq_flatMap inMethod cs

end Tree

/-! ## Uses along the moves -/

/-- The use of an instance variable that an observation is, if it is one. -/
def Observation.use? : Observation → Option VariableUse
  | .instanceVariable name access line => some ⟨name, access, line⟩
  | _ => none

/-- The uses that a move comes to. -/
def Move.uses (inMethod : Bool) : Move → List VariableUse
  | .note o => Tree.countedUses inMethod o.use?.toList
  | .sign _ _ => []
  | .visit t => t.ownedUses inMethod

namespace Tree

theorem flatMap_uses_note (inMethod : Bool) (os : List Observation) :
    (os.map Move.note).flatMap (Move.uses inMethod)
      = countedUses inMethod (os.filterMap Observation.use?) := by
  rw [List.flatMap_map]
  cases inMethod with
  | false => simp [Move.uses, countedUses]
  | true => exact (List.filterMap_eq_flatMap_toList _ _).symm

theorem flatMap_uses_visits (inMethod : Bool) (ts : List Tree) :
    (visits ts).flatMap (Move.uses inMethod) = ownedUsesAll inMethod ts := by
  rw [visits, List.flatMap_map, ownedUsesAll_eq_flatMap]
  rfl

theorem flatMap_uses_parameterMoves (inMethod : Bool) (t : Tree) :
    (parameterMoves t).flatMap (Move.uses inMethod) = t.ownedUses inMethod := by
  unfold parameterMoves
  split
  · simp [Move.uses, Observation.use?, countedUses, ownedUses]
  · simp [Move.uses, Observation.use?, countedUses, ownedUses, flatMap_uses_visits]
  · simp [Move.uses, Observation.use?, countedUses, ownedUses, flatMap_uses_visits]
  · rw [List.flatMap_singleton]
    rfl

theorem filterMap_use?_receiverNotes (receiver : Option Tree) (method : Text) (line : Int) :
    (receiverNotes receiver method line).filterMap Observation.use? = [] := by
  unfold receiverNotes
  split
  case h_4 => rfl
  all_goals split <;> rfl

theorem filterMap_use?_compoundNotes? {line : Int} {t : Tree} {os : List Observation}
    (h : compoundNotes? line t = some os) :
    os.filterMap Observation.use? = compoundUses line t := by
  unfold compoundNotes? at h
  split at h
  all_goals cases h
  all_goals rfl

theorem filterMap_use?_conditionalNotes? {line : Int} {t : Tree} {os : List Observation}
    (h : conditionalNotes? line t = some os) :
    os.filterMap Observation.use? = lazyUses line t := by
  unfold conditionalNotes? at h
  split at h
  all_goals cases h
  all_goals rfl

theorem flatMap_uses_compoundMoves (inMethod : Bool) (line : Int) (cs : List Tree) :
    (compoundMoves line cs).flatMap (Move.uses inMethod)
      = ownedUses inMethod (.known .opAsgn line cs) := by
  cases cs with
  | nil => rfl
  | cons target values =>
    rw [compoundMoves, ownedUses, List.getElem?_cons_zero, Option.bind_some,
      ← isSome_compoundNotes? line]
    cases found : compoundNotes? line target with
    | none => exact flatMap_uses_visits inMethod (target :: values)
    | some os =>
      simp only [List.flatMap_append, flatMap_uses_note, flatMap_uses_visits,
        filterMap_use?_compoundNotes? found]
      rfl

theorem flatMap_uses_conditionalMoves (inMethod : Bool) (line : Int) (cs : List Tree) :
    (conditionalMoves line cs).flatMap (Move.uses inMethod) = conditionalUses inMethod line cs := by
  match cs with
  | [] => rfl
  | [guard] => exact (flatMap_uses_visits inMethod [guard]).trans (List.append_nil _)
  | guard :: assignment :: rest =>
    rw [conditionalMoves, conditionalUses, ← isSome_conditionalNotes? line]
    simp only [List.getElem?_cons_succ, List.getElem?_cons_zero]
    cases found : conditionalNotes? line assignment with
    | none => simp [flatMap_uses_visits, ownedUsesAll]
    | some os =>
      simp [flatMap_uses_note, flatMap_uses_visits, ownedUsesAll_eq_flatMap,
        usesBelow_eq_flatMap, filterMap_use?_conditionalNotes? found]

theorem flatMap_uses_targetMoves (inMethod : Bool) (t : Tree) :
    (targetMoves t).flatMap (Move.uses inMethod)
      = if t.hasTag .attrasgn then usesBelow inMethod t else t.ownedUses inMethod := by
  rw [targetMoves, flatMap_uses_visits, ownedUsesAll_eq_flatMap]
  split
  · rw [usesBelow_eq_flatMap]
  · rw [List.flatMap_singleton]

theorem targetUsesAll_eq_flatMap (inMethod : Bool) (ts : List Tree) :
    targetUsesAll inMethod ts
      = ts.flatMap fun t => (targetMoves t).flatMap (Move.uses inMethod) := by
  induction ts with
  | nil => rfl
  | cons t ts ih => rw [targetUsesAll, ih, List.flatMap_cons, flatMap_uses_targetMoves]

theorem flatMap_uses_multipleMoves (inMethod : Bool) (line : Int) (cs : List Tree) :
    (multipleMoves cs).flatMap (Move.uses inMethod)
      = ownedUses inMethod (.known .masgn line cs) := by
  cases cs with
  | nil => rfl
  | cons left values =>
    have targets : targetUses inMethod left = targetUsesAll inMethod left.children := by
      cases left <;> rfl
    rw [multipleMoves, ownedUses, List.flatMap_append, flatMap_uses_visits, targets,
      List.flatMap_assoc, targetUsesAll_eq_flatMap]

theorem flatMap_uses_callMoves (inMethod : Bool) (t : Tree) :
    t.callMoves.flatMap (Move.uses inMethod) = [] := by
  simp only [callMoves]
  cases isEmptyAt t.children 0 with
  | false =>
    simp [flatMap_uses_note, filterMap_use?_receiverNotes, Move.uses, countedUses]
  | true =>
    cases (argumentsAt t.children 2).isEmpty <;>
      simp [Move.uses, Observation.use?, countedUses]

theorem flatMap_uses_selfCallMoves (inMethod : Bool) (t : Tree) :
    t.selfCallMoves.flatMap (Move.uses inMethod) = [] := by
  simp only [selfCallMoves]
  cases (argumentsAt t.children 1).isEmpty <;> simp [Move.uses, Observation.use?, countedUses]

/-- The uses in a tree are those that its moves come to, followed by those in the scope that it
opens if they pass through it. -/
theorem ownedUses_eq_moves (inMethod : Bool) (t : Tree) :
    t.ownedUses inMethod = t.moves.flatMap (Move.uses inMethod)
      ++ if t.scopeKind?.any ScopeKind.passesVariables then
        t.within.flatMap (ownedUses (inMethod || t.hasTag .defn)) else [] := by
  cases t with
  | atom a => rfl
  | node tag line cs =>
    cases tag with
    | other word unknown =>
      simp [ownedUses, moves, ownMoves, scopeKind?, flatMap_uses_visits]
    | known k =>
      -- first the nodes whose children are not all walked one after the other
      cases k
      case masgn => simp [moves, scopeKind?, flatMap_uses_multipleMoves _ line]
      case opAsgn => simp [moves, scopeKind?, flatMap_uses_compoundMoves]
      case iter =>
        cases cs with
        | nil =>
          simp [moves, scopeKind?, flatMap_uses_visits, ownedUses, within, bodyOf, hasWalkedBody,
            bodyStart, Move.uses, ownedUsesAll, ScopeKind.passesVariables, children, hasTag]
        | cons call rest =>
          simp [moves, scopeKind?, flatMap_uses_visits, ownedUses, within, bodyOf, hasWalkedBody,
            bodyStart, Move.uses, ownedUsesAll, ownedUsesAll_eq_flatMap, ScopeKind.passesVariables,
            children, hasTag]
      case defn =>
        cases cs <;>
          simp [moves, scopeKind?, ownedUses, within, bodyOf, hasWalkedBody,
            bodyStart, ownedUsesAll_eq_flatMap, ScopeKind.passesVariables, children, hasTag]
      case args =>
        simp [moves, scopeKind?, List.flatMap_assoc, flatMap_uses_parameterMoves, ownedUses,
          ownedUsesAll_eq_flatMap]
      all_goals
        simp [ownedUses, moves, ownMoves, scopeKind?, flatMap_uses_visits, flatMap_uses_note,
          flatMap_uses_callMoves, flatMap_uses_selfCallMoves, filterMap_use?_receiverNotes,
          Move.uses, flatMap_uses_conditionalMoves, ScopeKind.passesVariables, within, bodyOf,
          hasWalkedBody, children, bodyStart, ownedUsesAll_eq_flatMap, hasTag, countedUses,
          Observation.use?]

/-! ## From moves to notes -/

open Item

/-- The uses noted for a class or module when an outline stands inside scopes nested in it. -/
def usesSeen (inner : List ScopeKind) (kind : ScopeKind) (items : List Item) : List VariableUse :=
  (seenAll inner kind items).filterMap Observation.use?

/-- Uses do not pass through a singleton method, a class or a module. -/
theorem usesSeen_of_not_passing {inner : List ScopeKind}
    (closed : inner.all ScopeKind.passesVariables = false) (kind : ScopeKind) (items : List Item) :
    usesSeen inner kind items = [] := by
  refine filterMap_seenAll_eq_nil Observation.use? (fun more o some => ?_) items
  cases o
  case instanceVariable => simp [Observation.reaches, closed]
  all_goals cases some

/-- Notes count for a class or module if they are made in a method of it. -/
theorem usesSeen_notes {inner : List ScopeKind} {kind : ScopeKind}
    (passes : inner.all ScopeKind.passesVariables) (body : kind.isBody) (os : List Observation) :
    usesSeen inner kind (notes os)
      = countedUses (inner.contains .method) (os.filterMap Observation.use?) := by
  have each (o : Observation) : (if o.reaches inner kind then o.use? else none)
      = if inner.contains .method then o.use? else none := by
    cases o <;> simp [Observation.use?, Observation.reaches, passes, body]
  rw [usesSeen, seenAll_notes, List.filterMap_filter]
  simp only [each]
  cases inner.contains .method <;> simp [countedUses]

/-- A move is seen as the uses that it comes to, provided that the trees it goes on to are. -/
theorem usesSeen_move {m : Move} {inner : List ScopeKind} {kind : ScopeKind}
    (passes : inner.all ScopeKind.passesVariables) (body : kind.isBody)
    (each : ∀ u ∈ m.trees, usesSeen inner kind u.outline = u.ownedUses (inner.contains .method)) :
    usesSeen inner kind m.outline = m.uses (inner.contains .method) := by
  cases m with
  | note o =>
    refine (usesSeen_notes passes body [o]).trans ?_
    rw [Move.uses, List.filterMap_cons]
    cases o.use? <;> rfl
  | sign u method =>
    rw [Move.outline_sign, callNote]
    cases u.render with
    | ok text =>
      refine (usesSeen_notes passes body [_]).trans ?_
      simp [countedUses, Observation.use?, Move.uses]
    | error f => rfl
  | visit u => exact each u List.mem_cons_self

theorem hasTag_defn_eq {t : Tree} {kind : ScopeKind} (h : t.scopeKind? = some kind) :
    t.hasTag .defn = (kind == .method) := by
  unfold scopeKind? at h
  split at h
  all_goals cases h
  all_goals rfl

theorem use?_statements (count : Int) : (Observation.statements count).use? = none := rfl

/-- The uses in a tree that a class or module around it sees are those that it owns. -/
theorem usesSeen_outline {t : Tree} (sound : ∀ u, t.Reaches u → u.Sound) {inner : List ScopeKind}
    {kind : ScopeKind} (passes : inner.all ScopeKind.passesVariables) (body : kind.isBody) :
    usesSeen inner kind t.outline = t.ownedUses (inner.contains .method) := by
  -- whether a method lies in between is kept in `inner`, which grows by one scope at a time
  induction t using walk_induction generalizing inner with
  | step t ih =>
    have each : ∀ u ∈ t.walked, ∀ inner : List ScopeKind, inner.all ScopeKind.passesVariables →
        usesSeen inner kind u.outline = u.ownedUses (inner.contains .method) :=
      fun u walked inner => ih u walked (fun v reaches => sound v (.head walked reaches))
    rw [ownedUses_eq_moves, usesSeen, seenAll_outline (sound t .refl), List.filterMap_append,
      List.filterMap_flatMap]
    congr 1
    · refine List.flatMap_congr fun m mem => usesSeen_move passes body fun u visited => ?_
      have walked : u ∈ t.walked := List.mem_append_left _ (List.mem_flatMap.2 ⟨m, mem, visited⟩)
      exact each u walked inner passes
    · cases found : t.scopeKind? with
      | none => rfl
      | some k =>
        rw [Option.any_some, Option.map_some, Option.getD_some]
        by_cases through : k.passesVariables
        · have deeper : (k :: inner).all ScopeKind.passesVariables := by simp [through, passes]
          have inMethod : (k :: inner).contains .method
              = (inner.contains .method || t.hasTag .defn) := by
            rw [hasTag_defn_eq found, List.contains_cons, Bool.or_comm, BEq.comm]
          rw [if_pos through, filterMap_seenAll_scopeOutline use?_statements,
            ← within_of_scopeKind? found]
          refine List.flatMap_congr fun u mem => ?_
          rw [← inMethod]
          exact each u (List.mem_append_right _ mem) (k :: inner) deeper
        · -- the scope owns what is in it
          have closed : (k :: inner).all ScopeKind.passesVariables = false := by simp [through]
          rw [if_neg through]
          exact usesSeen_of_not_passing closed kind _

end Tree

/-! ## Variables of a class -/

theorem Facts.instanceVariables_noteAll (f : Facts) (os : List Observation) :
    (f.noteAll os).instanceVariables
      = (os.filterMap Observation.use?).foldl
        (fun vars use => vars.add use.name (use.access, use.line)) f.instanceVariables := by
  induction os generalizing f with
  | nil => rfl
  | cons o os ih =>
    rw [noteAll, List.foldl_cons, ← noteAll, ih, List.filterMap_cons]
    cases o <;> rfl

/-- Whether a variable is used in a given way. -/
def isUsedFor (uses : List VariableUse) (name : Text) (access : Access) : Bool :=
  uses.any fun use => use.name = name && use.access = access

/-- The variables that are used, in order of first use. -/
def variableNames (uses : List VariableUse) : List Text := (uses.map VariableUse.name).eraseDups

/-- The variables that are read and never set, not even lazily. -/
def assumedNames (uses : List VariableUse) : List Text :=
  (variableNames uses).filter fun name =>
    isUsedFor uses name .read && !isUsedFor uses name .write && !isUsedFor uses name .lazyWrite

/-- The variables that are read, or set other than lazily. -/
def heldNames (uses : List VariableUse) : List Text :=
  (variableNames uses).filter fun name => isUsedFor uses name .read || isUsedFor uses name .write

/-- Uses filed by the names of the variables. -/
def filedUses (uses : List VariableUse) : InstanceVariables :=
  Groups.collect VariableUse.name (fun use => (use.access, use.line)) uses

theorem nodup_variableNames (uses : List VariableUse) : (variableNames uses).Nodup := by
  rw [variableNames, ← Groups.keys_collect VariableUse.name VariableUse.access]
  exact Groups.nodup_keys_collect ..

theorem isUsed_filed (uses : List VariableUse) (name : Text) (access : Access) :
    InstanceVariables.isUsed ((uses.filter fun use => use.name = name).map
      fun use => (use.access, use.line)) access = isUsedFor uses name access := by
  simp [InstanceVariables.isUsed, isUsedFor, List.any_filter]

theorem assumed_filedUses (uses : List VariableUse) :
    (filedUses uses).assumed = assumedNames uses := by
  rw [InstanceVariables.assumed, filedUses, Groups.collect_eq, List.filter_map, List.map_map,
    assumedNames]
  simp only [Function.comp_def, isUsed_filed, List.map_id', variableNames]

theorem held_filedUses (uses : List VariableUse) : (filedUses uses).held = heldNames uses := by
  rw [InstanceVariables.held, filedUses, Groups.collect_eq, List.filter_map, List.map_map,
    heldNames]
  simp only [Function.comp_def, isUsed_filed, List.map_id', variableNames]

namespace Tree

theorem scopeKind?_of_classBody? {m : Tree} {body : List Tree} (h : m.classBody? = some body) :
    ∃ kind, m.scopeKind? = some kind ∧ m.bodyOf kind = body ∧
      (kind = .classBody ∨ kind = .moduleBody) := by
  unfold classBody? at h
  split at h
  · cases h
    exact ⟨.moduleBody, rfl, rfl, Or.inr rfl⟩
  next cs =>
    cases h
    refine ⟨.classBody, rfl, ?_, Or.inl rfl⟩
    by_cases struct : hasStructTemplate cs <;>
      simp [bodyOf, hasWalkedBody, children, bodyStart, struct]
  · cases h

/-- The variables of the completed scope of a class or module are those that it owns. -/
theorem instanceVariables_of_isScopeOf {m : Tree} {body : List Tree}
    (sound : ∀ u, m.Reaches u → u.Sound) (is : m.classBody? = some body) {s : Scope}
    (scope : m.IsScopeOf s) : s.facts.instanceVariables = filedUses (ownedUsesAll false body) := by
  obtain ⟨kind, found, rfl, isClass⟩ := scopeKind?_of_classBody? is
  obtain rfl : kind = s.kind := Option.some.inj (found.symm.trans scope.kind)
  have body : s.kind.isBody := by
    rcases isClass with h | h <;> rw [h] <;> rfl
  have owned : (Item.seenAll [] s.kind (m.scopeOutline s.kind)).filterMap Observation.use?
      = ownedUsesAll false (m.bodyOf s.kind) := by
    rw [filterMap_seenAll_scopeOutline use?_statements, ownedUsesAll_eq_flatMap]
    refine List.flatMap_congr fun u mem => ?_
    refine usesSeen_outline (fun v reaches => sound v (.head ?_ reaches)) rfl body
    exact List.mem_append_right _ (within_of_scopeKind? found ▸ mem)
  rw [scope.facts, Facts.instanceVariables_noteAll, owned]
  rfl

end Tree

/-! ## Warnings about classes -/

/-- The warning that a class or module assumes a variable. -/
def assumptionWarning (source context : Text) (line : Int) (name : Text) : Warning :=
  { smell := "InstanceVariableAssumption", severity := .low, source := source, context := context
    lines := some [line], message := "assumes too much for instance variable " ++ name
    details := [("assumption", .text name)] }

/-- The warning that a class or module has too many variables. -/
def tooManyWarning (source context : Text) (line : Int) (count : Nat) : Warning :=
  { smell := "TooManyInstanceVariables", severity := .medium, source := source, context := context
    lines := some [line], message := "has at least " ++ Text.ofInt count ++ " instance variables"
    details := [("count", .int count)] }

/-- In classes and modules only the smells of instance variables are looked for. -/
theorem warnings_class (settings : Settings) {s : Scope} (outer : Chain)
    (isClass : s.kind = .classBody ∨ s.kind = .moduleBody) :
    let options (smell : Smell) := settings.resolve smell.name (Chain.names (s :: outer))
    Chain.warnings settings (s :: outer)
      = (if (options .instanceVariableAssumption).enabled then s.assumptions else [])
        ++ if (options .tooManyInstanceVariables).enabled then
          s.tooManyVariables (options .tooManyInstanceVariables) else [] := by
  rcases isClass with h | h <;> simp [Chain.warnings, Smell.all, Smell.kinds, Smell.find, h]

theorem assumptions_of_filed (source : Text) {s : Scope} {uses : List VariableUse}
    (filed : s.facts.instanceVariables = filedUses uses) :
    s.assumptions.map (fun w => { w with source := source })
      = (assumedNames uses).map (assumptionWarning source s.name s.line) := by
  rw [Scope.assumptions, filed, assumed_filedUses, List.map_map]
  rfl

theorem tooManyVariables_of_filed (source : Text) {s : Scope} {uses : List VariableUse}
    (filed : s.facts.instanceVariables = filedUses uses) (o : SmellOptions) :
    (s.tooManyVariables o).map (fun w => { w with source := source })
      = if o.maxInstanceVariables < (heldNames uses).length then
          [tooManyWarning source s.name s.line (heldNames uses).length] else [] := by
  simp only [Scope.tooManyVariables, filed, held_filedUses]
  by_cases few : ((heldNames uses).length : Int) ≤ o.maxInstanceVariables
  · rw [if_pos few, if_neg (Int.not_lt.2 few)]
    rfl
  · rw [if_neg few, if_pos (Int.not_le.1 few)]
    rfl

theorem warningsAbout_class (settings : Settings) (source : Text) {s : Scope} (outer : Chain)
    (isClass : s.kind = .classBody ∨ s.kind = .moduleBody) {uses : List VariableUse}
    (filed : s.facts.instanceVariables = filedUses uses) :
    let options (smell : Smell) := settings.resolve smell.name (Chain.names (s :: outer))
    warningsAbout settings source [s :: outer]
      = (if (options .instanceVariableAssumption).enabled then
          (assumedNames uses).map (assumptionWarning source s.name s.line) else [])
        ++ if (options .tooManyInstanceVariables).enabled ∧
            (options .tooManyInstanceVariables).maxInstanceVariables < (heldNames uses).length then
          [tooManyWarning source s.name s.line (heldNames uses).length] else [] := by
  intro options
  rw [warningsAbout, List.flatMap_singleton, warnings_class settings outer isClass,
    List.map_append, ite_and]
  congr 1
  · split
    · exact assumptions_of_filed source filed
    · rfl
  · split
    · exact tooManyVariables_of_filed source filed _
    · rfl

/-- The warnings about the classes and modules of a tree whose scopes can be examined. Each class or
module that the walk reaches has a completed scope. About that scope a warning is given for every
variable that it owns a read and no write of, in order of first use, and one more if it owns reads
or eager writes of more variables than the limit. -/
theorem instance_variable_warnings (settings : Settings) (source : Text) (report : List Warning)
    (t : Tree) (chains : List Chain) (root : Chain)
    (examined : t.examineScopes = .ok (chains, root)) :
    t.examineInto settings source report
        = (report ++ chains.flatMap fun c => warningsAbout settings source [c], none) ∧
    ∀ m body, t.Reaches m → m.classBody? = some body →
      (∃ s outer, (s :: outer) ∈ chains ∧ s.node = some m) ∧
      ∀ s outer, (s :: outer) ∈ chains → s.node = some m →
        let uses := Tree.ownedUsesAll false body
        let options (smell : Smell) := settings.resolve smell.name (Chain.names (s :: outer))
        (assumedNames uses).Nodup ∧
        warningsAbout settings source [s :: outer]
          = (if (options .instanceVariableAssumption).enabled then
              (assumedNames uses).map (assumptionWarning source s.name m.line) else [])
            ++ if (options .tooManyInstanceVariables).enabled ∧
                (options .tooManyInstanceVariables).maxInstanceVariables < (heldNames uses).length
              then [tooManyWarning source s.name m.line (heldNames uses).length] else [] := by
  obtain ⟨proper, sound, rfl⟩ := Tree.examineScopes_eq_ok examined
  constructor
  · rw [Tree.examineInto, Tree.validate]
    simp [proper, sound, warningsAbout]
  · intro m body reaches is
    obtain ⟨kind, found, -, isClass⟩ := Tree.scopeKind?_of_classBody? is
    constructor
    · obtain ⟨s, outer, completed, scope⟩ := Tree.exists_completed_of_reaches sound reaches found
      exact ⟨s, outer, completed, scope.node⟩
    · intro s outer completed node uses options
      obtain ⟨u, -, scope⟩ := Tree.exists_reaches_of_completed sound completed
      obtain rfl : u = m := Option.some.inj (scope.node.symm.trans node)
      obtain rfl : kind = s.kind := Option.some.inj (found.symm.trans scope.kind)
      have below (v : Tree) (h : u.Reaches v) : v.Sound :=
        Tree.sound_of_reaches sound (reaches.trans h)
      have filed := Tree.instanceVariables_of_isScopeOf below is scope
      refine ⟨(nodup_variableNames uses).filter _, ?_⟩
      rw [← scope.line]
      exact warningsAbout_class settings source outer isClass filed

/-- A class whose methods read, set and lazily set variables, with a use outside of methods and a
singleton method. -/
def basketClass : Tree :=
  let name (text : String) := Tree.atom (.sym text)
  let ivar (line : Int) (text : String) := Tree.known .ivar line [name text]
  .known .classDef 1 [name "Basket", .atom .nil,
    .known .iasgn 2 [name "@sum", .known .nil 2 []],
    .known .defn 3 [name "total",
      .known .iter 4 [.known .call 4 [ivar 4 "@items", name "each"], .known .args 4 [],
        .known .if 5 [ivar 5 "@sum", ivar 5 "@last", .atom .nil]]],
    .known .defn 6 [name "load",
      .known .opAsgnOr 7 [ivar 7 "@cache",
        .known .iasgn 7 [name "@cache", ivar 7 "@origin"]],
      .known .opAsgn 8 [ivar 8 "@count", name "+", ivar 8 "@last"]],
    .known .defs 9 [.known .self 9 [], name "make", ivar 9 "@hidden"]]

/-- The default settings override nothing. -/
theorem resolve_default (smell : Text) (names : List Text) :
    ({} : Settings).resolve smell names = ({} : Settings).general smell := by
  have none : names.findSome? (Overrides.find? [] smell) = none :=
    List.findSome?_eq_none_iff.2 fun _ _ => rfl
  rw [Settings.resolve]
  simp only [none]

set_option maxRecDepth 4000 in
/-- A lazy write is no read but keeps a variable from being assumed, and neither the use outside of
methods nor that in the singleton method counts. -/
theorem basketClass_warnings :
    ∃ chains root s outer, basketClass.examineScopes = .ok (chains, root) ∧
      basketClass.Reaches basketClass ∧ s :: outer ∈ chains ∧ s.node = some basketClass ∧
      warningsAbout {} "basket" [s :: outer]
        = [assumptionWarning "basket" s.name 1 "@items", assumptionWarning "basket" s.name 1 "@sum",
          assumptionWarning "basket" s.name 1 "@last",
          assumptionWarning "basket" s.name 1 "@origin", tooManyWarning "basket" s.name 1 5] := by
  obtain ⟨-, classes⟩ := instance_variable_warnings {} "basket" [] basketClass _ _ rfl
  obtain ⟨⟨s, outer, mem, node⟩, each⟩ := classes basketClass _ .refl rfl
  obtain ⟨-, warnings⟩ := each s outer mem node
  refine ⟨_, _, s, outer, rfl, .refl, mem, node, warnings.trans ?_⟩
  simp only [resolve_default]
  rfl

end CodeSmell
