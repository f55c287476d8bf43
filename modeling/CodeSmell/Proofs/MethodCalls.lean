import CodeSmell.Examination
import CodeSmell.Proofs.Scopes

/-!
# The calls of a method

`Tree.callSites` lists the calls in a tree by recursion on the tree alone: which nodes are calls, in
which order they come, and what counts for another scope. When the scope of a method is completed,
the calls noted for it are those of the elements of its body, one after the other
(`method_calls_of_body`). Blocks, conditionals and yields add to the calls of the method around
them; methods, classes and modules inside it do not.
-/

set_option autoImplicit false

namespace CodeSmell

/-- A call in a tree: the tree that makes it, and the method that is called. -/
structure CallSite where
  tree : Tree
  method : Text

/-- A call as it is noted. Its signature is how the tree reads. -/
def CallSite.call (site : CallSite) : Except RenderFault Call := do
  return ⟨← site.tree.render, site.method, site.tree.line⟩

namespace Tree

/-- A call with a receiver slot. Without receiver and arguments it is none. -/
def ownSite (t : Tree) : List CallSite :=
  if isEmptyAt t.children 0 && (argumentsAt t.children 2).isEmpty then []
  else [⟨t, nameAt t.children 1⟩]

/-- A call on the object itself. Without arguments it is none. -/
def ownSelfSite (t : Tree) : List CallSite :=
  if (argumentsAt t.children 1).isEmpty then [] else [⟨t, nameAt t.children 0⟩]

mutual

/-- The calls in a tree that count for the method around it. -/
def callSites : Tree → List CallSite
  | .atom _ => []
  | .node (.known .call) line cs => ownSite (.known .call line cs) ++ callSitesAll cs
  | .node (.known .attrasgn) line cs => ownSite (.known .attrasgn line cs) ++ callSitesAll cs
  | .node (.known .fcall) line cs => ownSelfSite (.known .fcall line cs) ++ callSitesAll cs
  | .node (.known .opAsgn1) line cs => ⟨.known .opAsgn1 line cs, "[]"⟩ :: callSitesAll cs
  | .node (.known .match2) line cs => ⟨.known .match2 line cs, "=~"⟩ :: callSitesAll cs
  | .node (.known .match3) line cs => ⟨.known .match3 line cs, "=~"⟩ :: callSitesAll cs
  | .node (.known .iter) line [] => [⟨.known .iter line [], []⟩]
  | .node (.known .iter) line (call :: rest) =>
    callSites call ++ ⟨.known .iter line (call :: rest), calledMethod call⟩ :: callSitesAll rest
  | .node (.known .masgn) _ [] => []
  | .node (.known .masgn) _ (left :: values) => targetSites left ++ callSitesAll values
  | .node (.known .opAsgn) _ [] => []
  | .node (.known .opAsgn) _ (target :: values) =>
    (if target.isVariable then [] else callSites target) ++ callSitesAll values
  | .node (.known .opAsgnOr) _ cs => conditionalSites cs
  | .node (.known .opAsgnAnd) _ cs => conditionalSites cs
  -- the walk does not go below these
  | .node (.known .vcall) _ _ | .node (.known .ivar) _ _ => []
  | .node (.known .self) _ _ | .node (.known .zsuper) _ _ => []
  -- these have calls of their own
  | .node (.known .moduleDef) _ _ | .node (.known .classDef) _ _ => []
  | .node (.known .defn) _ _ | .node (.known .defs) _ _ => []
  | .node _ _ cs => callSitesAll cs

/-- The calls in several trees. -/
def callSitesAll : List Tree → List CallSite
  | [] => []
  | t :: ts => callSites t ++ callSitesAll ts

/-- The calls below a tree. -/
def sitesBelow : Tree → List CallSite
  | .atom _ => []
  | .node _ _ cs => callSitesAll cs

/-- The calls in the left side of a multiple assignment. The side itself is no call. -/
def targetSites : Tree → List CallSite
  | .atom _ => []
  | .node _ _ cs => targetSitesAll cs

/-- The calls in several targets of a multiple assignment. To write an attribute is no call. -/
def targetSitesAll : List Tree → List CallSite
  | [] => []
  | t :: ts => (if t.hasTag .attrasgn then sitesBelow t else callSites t) ++ targetSitesAll ts

/-- The calls in an assignment that happens only under a condition. -/
def conditionalSites : List Tree → List CallSite
  | guard :: assignment :: rest =>
    if assignment.isAssignment then sitesBelow assignment
    else callSites guard ++ callSites assignment ++ callSitesAll rest
  | [guard] => callSites guard
  | [] => []

end

/-- The body of a method. -/
def methodBody? : Tree → Option (List Tree)
  | .node (.known .defn) _ cs => some (cs.drop 1)
  | .node (.known .defs) _ cs => some (cs.drop 2)
  | _ => none

theorem callSitesAll_eq_flatMap (ts : List Tree) : callSitesAll ts = ts.flatMap callSites := by
  induction ts with
  | nil => rfl
  | cons t ts ih => rw [callSitesAll, ih, List.flatMap_cons]

theorem sitesBelow_eq_flatMap (t : Tree) : sitesBelow t = t.children.flatMap callSites := by
  cases t with
  | atom a => rfl
  | node tag line cs => exact callSitesAll_eq_flatMap cs

end Tree

/-! ## Calls along the moves -/

/-- The calls that a move comes to. -/
def Move.sites : Move → List CallSite
  | .note _ => []
  | .sign t method => [⟨t, method⟩]
  | .visit t => t.callSites

namespace Tree

theorem sites_note (o : Observation) : (Move.note o).sites = [] := rfl

theorem flatMap_sites_visits (ts : List Tree) :
    (visits ts).flatMap Move.sites = callSitesAll ts := by
  rw [visits, List.flatMap_map, callSitesAll_eq_flatMap]
  rfl

theorem flatMap_sites_parameterMoves (t : Tree) :
    (parameterMoves t).flatMap Move.sites = t.callSites := by
  unfold parameterMoves
  split
  · rfl
  · rw [List.flatMap_cons, flatMap_sites_visits]
    rfl
  · rw [List.flatMap_cons, flatMap_sites_visits]
    rfl
  · rw [List.flatMap_singleton]
    rfl

theorem flatMap_sites_targetMoves (t : Tree) :
    (targetMoves t).flatMap Move.sites
      = if t.hasTag .attrasgn then sitesBelow t else t.callSites := by
  rw [targetMoves, flatMap_sites_visits, callSitesAll_eq_flatMap]
  split
  · rw [sitesBelow_eq_flatMap]
  · rw [List.flatMap_singleton]

theorem flatMap_sites_compoundMoves (line : Int) (cs : List Tree) :
    (compoundMoves line cs).flatMap Move.sites = callSites (.known .opAsgn line cs) := by
  cases cs with
  | nil => rfl
  | cons target values =>
    rw [compoundMoves, callSites, List.getElem?_cons_zero, Option.bind_some,
      ← isSome_compoundNotes? line]
    cases compoundNotes? line target with
    | none => exact flatMap_sites_visits (target :: values)
    | some os =>
      simp only [List.flatMap_append, flatMap_note sites_note, flatMap_sites_visits]
      rfl

theorem flatMap_sites_conditionalMoves (line : Int) (cs : List Tree) :
    (conditionalMoves line cs).flatMap Move.sites = conditionalSites cs := by
  match cs with
  | [] => rfl
  | [guard] => exact (flatMap_sites_visits [guard]).trans (List.append_nil _)
  | guard :: assignment :: rest =>
    rw [conditionalMoves, conditionalSites, ← isSome_conditionalNotes? line]
    simp only [List.getElem?_cons_succ, List.getElem?_cons_zero]
    cases conditionalNotes? line assignment with
    | none => simp [flatMap_sites_visits, callSitesAll]
    | some os =>
      simp [flatMap_note sites_note, flatMap_sites_visits, callSitesAll_eq_flatMap,
        sitesBelow_eq_flatMap]

theorem targetSitesAll_eq_flatMap (ts : List Tree) :
    targetSitesAll ts = ts.flatMap fun t => (targetMoves t).flatMap Move.sites := by
  induction ts with
  | nil => rfl
  | cons t ts ih => rw [targetSitesAll, ih, List.flatMap_cons, flatMap_sites_targetMoves]

theorem flatMap_sites_multipleMoves (line : Int) (cs : List Tree) :
    (multipleMoves cs).flatMap Move.sites = callSites (.known .masgn line cs) := by
  cases cs with
  | nil => rfl
  | cons left values =>
    have targets : left.targetSites = targetSitesAll left.children := by cases left <;> rfl
    rw [multipleMoves, callSites, List.flatMap_append, flatMap_sites_visits, targets,
      List.flatMap_assoc, targetSitesAll_eq_flatMap]

/-- The calls in a tree are those that its moves come to, followed by those in the scope that it
opens if that scope is transparent. -/
theorem callSites_eq_moves (t : Tree) :
    t.callSites = t.moves.flatMap Move.sites
      ++ if t.scopeKind?.any ScopeKind.isTransparent then t.within.flatMap callSites else [] := by
  cases t with
  | atom a => rfl
  | node tag line cs =>
    cases tag with
    | other word unknown =>
      simp [callSites, moves, ownMoves, scopeKind?, flatMap_sites_visits]
    | known k =>
      -- first the nodes whose children are not all walked one after the other
      cases k
      case masgn => simp [moves, scopeKind?, flatMap_sites_multipleMoves line]
      case opAsgn => simp [moves, scopeKind?, flatMap_sites_compoundMoves]
      case iter =>
        cases cs with
        | nil => rfl
        | cons call rest =>
          simp [moves, scopeKind?, flatMap_sites_visits, callSites, within, bodyOf, hasWalkedBody,
            bodyStart, Move.sites, callSitesAll, callSitesAll_eq_flatMap, ScopeKind.isTransparent,
            children]
      case args =>
        simp [moves, scopeKind?, List.flatMap_assoc, flatMap_sites_parameterMoves, callSites,
          callSitesAll_eq_flatMap]
      all_goals
        simp [callSites, moves, ownMoves, scopeKind?, flatMap_sites_visits, flatMap_note sites_note,
          flatMap_callMoves sites_note, flatMap_selfCallMoves sites_note, ownSite, ownSelfSite,
          Move.sites, flatMap_sites_conditionalMoves, ScopeKind.isTransparent, within, bodyOf,
          hasWalkedBody, children, bodyStart, callSitesAll_eq_flatMap]

end Tree

/-! ## What the moves note -/

/-- The call that an observation is, if it is one. -/
def Observation.call? : Observation → Option Call
  | .call c => some c
  | _ => none

namespace Tree

@[simp] theorem note_mem_map {o : Observation} {os : List Observation} :
    Move.note o ∈ os.map Move.note ↔ o ∈ os := by
  simp

@[simp] theorem note_mem_visits {o : Observation} {ts : List Tree} :
    Move.note o ∈ visits ts ↔ False := by
  simp [visits]

theorem call?_of_mem_receiverNotes {receiver : Option Tree} {method : Text} {line : Int}
    {o : Observation} (h : o ∈ receiverNotes receiver method line) : o.call? = none := by
  unfold receiverNotes at h
  grind [Observation.call?]

theorem call?_of_mem_ownMoves {tag : Tag} {line : Int} {cs : List Tree} {o : Observation}
    (h : Move.note o ∈ ownMoves tag line cs) : o.call? = none := by
  unfold ownMoves callMoves selfCallMoves at h
  split at h
  all_goals grind [Observation.call?, call?_of_mem_receiverNotes, note_mem_map]

theorem call?_of_mem_compoundNotes? {line : Int} {t : Tree} {os : List Observation}
    {o : Observation} (h : compoundNotes? line t = some os) (mem : o ∈ os) : o.call? = none := by
  unfold compoundNotes? at h
  grind [Observation.call?]

theorem call?_of_mem_conditionalNotes? {line : Int} {t : Tree} {os : List Observation}
    {o : Observation} (h : conditionalNotes? line t = some os) (mem : o ∈ os) :
    o.call? = none := by
  unfold conditionalNotes? at h
  grind [Observation.call?]

/-- No move notes a call but those that sign a tree. -/
theorem call?_of_note_mem {t : Tree} {o : Observation} (h : Move.note o ∈ t.moves) :
    o.call? = none := by
  cases t with
  | atom a => cases h
  | node tag line cs =>
    have plain : Move.note o ∈ ownMoves tag line cs ++ visits cs → o.call? = none := by
      intro h
      rcases List.mem_append.1 h with h | h
      · exact call?_of_mem_ownMoves h
      · exact (note_mem_visits.1 h).elim
    have own : Move.note o ∈ ownMoves tag line cs → o.call? = none := call?_of_mem_ownMoves
    -- most nodes do their own moves and then visit their children: `plain`
    cases tag with
    | other word unknown => exact plain h
    | known k =>
      cases k
      case moduleDef | classDef | defn | defs | «if» | yield => cases h
      case vcall | ivar | self | zsuper => exact own h
      case iter => simp [moves] at h
      case args =>
        obtain ⟨element, -, h⟩ := List.mem_flatMap.1 h
        unfold parameterMoves at h
        grind [Observation.call?, note_mem_visits]
      case opAsgn =>
        simp only [moves, compoundMoves] at h
        grind [call?_of_mem_compoundNotes?, note_mem_visits, note_mem_map]
      case opAsgnOr | opAsgnAnd =>
        simp only [moves, conditionalMoves] at h
        grind [call?_of_mem_conditionalNotes?, note_mem_visits, note_mem_map]
      case masgn =>
        simp only [moves] at h
        unfold multipleMoves targetMoves at h
        grind [note_mem_visits]
      all_goals exact plain h

end Tree

/-! ## From moves to notes -/

theorem mapM_append_ok {ε α β : Type} {f : α → Except ε β} {xs ys : List α} {as bs : List β}
    (first : xs.mapM f = .ok as) (second : ys.mapM f = .ok bs) :
    (xs ++ ys).mapM f = .ok (as ++ bs) := by
  rw [List.mapM_append, first, second]
  rfl

theorem mapM_flatMap_ok {ε α β γ : Type} {f : β → Except ε γ} {g : α → List β} {h : α → List γ}
    (xs : List α) (each : ∀ x ∈ xs, (g x).mapM f = .ok (h x)) :
    (xs.flatMap g).mapM f = .ok (xs.flatMap h) := by
  induction xs with
  | nil => rfl
  | cons x xs ih =>
    rw [List.flatMap_cons, List.flatMap_cons]
    refine mapM_append_ok (each x List.mem_cons_self) (ih fun y mem => ?_)
    exact each y (List.mem_cons_of_mem x mem)

namespace Tree

open Item

/-- The calls noted for a scope when an outline stands inside scopes nested in it. -/
def callsSeen (inner : List ScopeKind) (kind : ScopeKind) (items : List Item) : List Call :=
  (seenAll inner kind items).filterMap Observation.call?

theorem call?_statements (count : Int) : (Observation.statements count).call? = none := rfl

/-- Calls do not pass through a scope that is not transparent. -/
theorem callsSeen_of_not_transparent {inner : List ScopeKind}
    (closed : inner.all ScopeKind.isTransparent = false) (kind : ScopeKind) (items : List Item) :
    callsSeen inner kind items = [] := by
  refine filterMap_seenAll_eq_nil Observation.call? (fun more o some => ?_) items
  cases o
  case call => simp [Observation.reaches, closed]
  all_goals cases some

theorem callsSeen_notes (inner : List ScopeKind) (kind : ScopeKind) {os : List Observation}
    (plain : ∀ o ∈ os, o.call? = none) : callsSeen inner kind (notes os) = [] := by
  rw [callsSeen, seenAll_notes]
  exact List.filterMap_eq_nil_iff.2 fun o mem => plain o (List.mem_of_mem_filter mem)

/-- A move is seen as the calls that it comes to, provided that the trees it goes on to are. -/
theorem mapM_sites_move {m : Move} {inner : List ScopeKind} (kind : ScopeKind) (sound : m.Sound)
    (transparent : inner.all ScopeKind.isTransparent)
    (plain : ∀ o, m = .note o → o.call? = none)
    (each : ∀ u ∈ m.trees, u.callSites.mapM CallSite.call = .ok (callsSeen inner kind u.outline)) :
    m.sites.mapM CallSite.call = .ok (callsSeen inner kind m.outline) := by
  cases m with
  | note o =>
    have single : ∀ o' ∈ [o], o'.call? = none := by
      intro o' mem
      rw [List.mem_singleton.1 mem]
      exact plain o rfl
    have none : callsSeen inner kind [.note o] = [] := callsSeen_notes inner kind single
    rw [Move.outline_note, none]
    rfl
  | sign u method =>
    obtain ⟨text, ok⟩ := sound
    have call : CallSite.call ⟨u, method⟩ = .ok ⟨text, method, u.line⟩ := by
      simp [CallSite.call, ok]
    simp [Move.sites, callNote, ok, callsSeen, seenAll, seen, Observation.reaches, transparent,
      call, Observation.call?]
  | visit u => exact each u List.mem_cons_self

/-- The calls of a tree that a scope around it sees are those of its call sites. -/
theorem mapM_callSites {t : Tree} (sound : ∀ u, t.Reaches u → u.Sound) {inner : List ScopeKind}
    (transparent : inner.all ScopeKind.isTransparent) (kind : ScopeKind) :
    t.callSites.mapM CallSite.call = .ok (callsSeen inner kind t.outline) := by
  -- `inner` grows by one transparent scope at each block, conditional or yield
  induction t using walk_induction generalizing inner with
  | step t ih =>
    have each : ∀ u ∈ t.walked, ∀ inner : List ScopeKind, inner.all ScopeKind.isTransparent →
        u.callSites.mapM CallSite.call = .ok (callsSeen inner kind u.outline) :=
      fun u walked inner => ih u walked (fun v reaches => sound v (.head walked reaches))
    have here := sound t .refl
    rw [callSites_eq_moves, callsSeen, seenAll_outline here, List.filterMap_append,
      List.filterMap_flatMap]
    refine mapM_append_ok (mapM_flatMap_ok _ fun m mem => ?_) ?_
    · refine mapM_sites_move kind (here.1 m mem) transparent ?_ fun u visited => ?_
      · rintro o rfl
        exact call?_of_note_mem mem
      · have walked : u ∈ t.walked :=
          List.mem_append_left _ (List.mem_flatMap.2 ⟨m, mem, visited⟩)
        exact each u walked inner transparent
    · cases found : t.scopeKind? with
      | none => rfl
      | some k =>
        rw [Option.any_some, Option.map_some, Option.getD_some]
        by_cases passes : k.isTransparent
        · have deeper : (k :: inner).all ScopeKind.isTransparent := by simp [passes, transparent]
          rw [if_pos passes, filterMap_seenAll_scopeOutline call?_statements,
            ← within_of_scopeKind? found]
          refine mapM_flatMap_ok _ fun u mem => ?_
          exact each u (List.mem_append_right _ mem) (k :: inner) deeper
        · -- the scope keeps its calls to itself
          have closed : (k :: inner).all ScopeKind.isTransparent = false := by simp [passes]
          rw [if_neg passes, ← callsSeen, callsSeen_of_not_transparent closed]
          rfl

theorem mapM_callSitesAll {ts : List Tree} (sound : ∀ t ∈ ts, ∀ u, t.Reaches u → u.Sound)
    (kind : ScopeKind) :
    (callSitesAll ts).mapM CallSite.call
      = .ok (ts.flatMap fun t => callsSeen [] kind t.outline) := by
  rw [callSitesAll_eq_flatMap]
  exact mapM_flatMap_ok ts fun t mem => mapM_callSites (sound t mem) rfl kind

end Tree

/-! ## Completed scopes of methods -/

theorem Facts.calls_noteAll (f : Facts) (os : List Observation) :
    (f.noteAll os).calls = f.calls ++ os.filterMap Observation.call? := by
  induction os generalizing f with
  | nil => exact (List.append_nil _).symm
  | cons o os ih =>
    have head : (f.note o).calls = f.calls ++ o.call?.toList := by
      cases o <;> simp [note, Observation.call?]
    rw [noteAll, List.foldl_cons, ← noteAll, ih, head, List.append_assoc]
    cases found : o.call? <;> simp [found]

namespace Tree

theorem scopeKind?_of_methodBody? {m : Tree} {body : List Tree} (h : m.methodBody? = some body) :
    ∃ kind, m.scopeKind? = some kind ∧ m.bodyOf kind = body := by
  unfold methodBody? at h
  split at h
  · cases h
    exact ⟨.method, rfl, rfl⟩
  · cases h
    exact ⟨.singletonMethod, rfl, rfl⟩
  · cases h

/-- The calls of the completed scope of a method are those of its body. -/
theorem calls_of_isScopeOf {m : Tree} {body : List Tree} (sound : ∀ u, m.Reaches u → u.Sound)
    (is : m.methodBody? = some body) {s : Scope} (scope : m.IsScopeOf s) :
    (callSitesAll body).mapM CallSite.call = .ok s.facts.calls := by
  obtain ⟨kind, found, rfl⟩ := scopeKind?_of_methodBody? is
  obtain rfl : kind = s.kind := Option.some.inj (found.symm.trans scope.kind)
  rw [scope.facts, Facts.calls_noteAll, List.nil_append,
    filterMap_seenAll_scopeOutline call?_statements]
  refine mapM_callSitesAll (fun t mem u reaches => sound u (.head ?_ reaches)) s.kind
  exact List.mem_append_right _ (within_of_scopeKind? found ▸ mem)

end Tree

/-- When the scopes of a tree can be examined, every method that the walk reaches has a completed
scope, and the calls noted for it are those of the elements of its body. -/
theorem method_calls_of_body (t : Tree) (chains : List Chain) (root : Chain)
    (examined : t.examineScopes = .ok (chains, root)) (m : Tree) (body : List Tree)
    (reaches : t.Reaches m) (is : m.methodBody? = some body) :
    (∃ s outer, (s :: outer) ∈ chains ∧ s.node = some m) ∧
      ∀ s outer, (s :: outer) ∈ chains → s.node = some m →
        (Tree.callSitesAll body).mapM CallSite.call = .ok s.facts.calls := by
  obtain ⟨-, sound, rfl⟩ := Tree.examineScopes_eq_ok examined
  obtain ⟨kind, found, -⟩ := Tree.scopeKind?_of_methodBody? is
  constructor
  · obtain ⟨s, outer, completed, scope⟩ := Tree.exists_completed_of_reaches sound reaches found
    exact ⟨s, outer, completed, scope.node⟩
  · intro s outer completed node
    obtain ⟨u, -, scope⟩ := Tree.exists_reaches_of_completed sound completed
    obtain rfl : u = m := Option.some.inj (scope.node.symm.trans node)
    have below (v : Tree) (h : u.Reaches v) : v.Sound :=
      Tree.sound_of_reaches sound (reaches.trans h)
    exact Tree.calls_of_isScopeOf below is scope

/-- A method that goes through `items` with a block and sets `@first` lazily there. Then it makes a
call with an argument, calls without a receiver, with an argument and without, and holds another
method. -/
def tallyMethod : Tree :=
  let items := Tree.known .lvar 3 [.atom (.sym "items")]
  let item := Tree.known .lvar 4 [.atom (.sym "item")]
  let one := Tree.known .array 6 [.known .lit 6 [.atom (.int "1")]]
  .known .defn 2 [.atom (.sym "tally"),
    .known .iter 3 [
      .known .call 3 [items, .atom (.sym "each")],
      .known .args 3 [.atom (.sym "item")],
      .known .opAsgnOr 4 [.known .ivar 4 [.atom (.sym "@first")],
        .known .iasgn 4 [.atom (.sym "@first"), .known .call 4 [item, .atom (.sym "size")]]]],
    .known .call 6 [items, .atom (.sym "take"), one],
    .known .call 7 [.atom .nil, .atom (.sym "mark"), one],
    .known .call 8 [.atom .nil, .atom (.sym "done")],
    .known .fcall 9 [.atom (.sym "log"), one],
    .known .fcall 10 [.atom (.sym "flush")],
    .known .defn 11 [.atom (.sym "reset"), .known .call 12 [items, .atom (.sym "clear")]]]

/-- A class with that method. -/
def tallyClass : Tree :=
  .known .classDef 1 [.atom (.sym "Basket"), .atom .nil, tallyMethod]

set_option maxRecDepth 4000 in
/-- The calls of the method are those of its block as well, and not those of the method in it. A
call without a receiver counts only if it has an argument. -/
theorem tallyMethod_calls :
    ∃ chains root s outer, tallyClass.examineScopes = .ok (chains, root) ∧
      tallyClass.Reaches tallyMethod ∧ s :: outer ∈ chains ∧ s.node = some tallyMethod ∧
      s.facts.calls = [⟨"items.each", "each", 3⟩,
        ⟨"items.each { |item| @first ||= item.size }", "each", 3⟩, ⟨"item.size", "size", 4⟩,
        ⟨"items.take(1)", "take", 6⟩, ⟨"mark(1)", "mark", 7⟩, ⟨"log(1)", "log", 9⟩] := by
  have reaches : tallyClass.Reaches tallyMethod := .single (List.mem_singleton.2 rfl)
  obtain ⟨⟨s, outer, mem, node⟩, calls⟩ :=
    method_calls_of_body tallyClass _ _ rfl tallyMethod _ reaches rfl
  exact ⟨_, _, s, outer, rfl, reaches, mem, node, (Except.ok.inj (calls s outer mem node)).symm⟩

end CodeSmell
