import CodeSmell.Proofs.Runs
import CodeSmell.Scope.Forest
import Mathlib.Data.List.Induction

/-!
# Histories of forests

A history lists what happened to a forest: scopes were opened, each by itself or inside an earlier
one, and observations were made in them. The lineage of a scope, read off the openings alone, tells
which scopes are around it, and an observation is noted for a scope exactly when it comes up to it
along the lineage of the scope in which it was made (`Forest.facts_run`).
-/

set_option autoImplicit false

namespace CodeSmell

namespace Forest

/-! ## Events -/

/-- What can happen to a forest. Scopes are given by their numbers. -/
inductive Event where
  /-- An outermost scope is opened. -/
  | root
  /-- A scope is opened inside another. -/
  | plant (on : Nat) (o : Opening)
  /-- An observation is made in a scope. -/
  | record (on : Nat) (o : Observation)

/-- The forest after one more event. -/
def take (forest : Forest) : Event → Forest
  | .root => ⟨Scope.root, none⟩ :: forest
  | .plant on o => forest.plant on o
  | .record on o => forest.record on o

/-- The forest that a history leads to. -/
def run (events : List Event) : Forest := events.foldl take []

/-- What a history says about a scope when it is opened: its kind and the number of the scope around
it. -/
structure Site where
  kind : ScopeKind
  outer : Option Nat

/-- The scope that an event opens. -/
def Event.opened? : Event → Option Site
  | .root => some ⟨.root, none⟩
  | .plant on o => some ⟨o.kind, some on⟩
  | .record _ _ => none

/-- The observation that an event makes, with the number of the scope in which it is made. -/
def Event.recorded? : Event → Option (Nat × Observation)
  | .root | .plant _ _ => none
  | .record on o => some (on, o)

/-- The scopes that a history opens, latest first. -/
def openings (events : List Event) : List Site := (events.filterMap Event.opened?).reverse

/-- The observations of a history in the order in which they are made. -/
def recordings (events : List Event) : List (Nat × Observation) :=
  events.filterMap Event.recorded?

/-- Whether each event is on a scope that has been opened before, `count` of them at the start. -/
def isProperFrom (count : Nat) : List Event → Bool
  | [] => true
  | .root :: rest => isProperFrom (count + 1) rest
  | .plant on _ :: rest => on < count && isProperFrom (count + 1) rest
  | .record on _ :: rest => on < count && isProperFrom count rest

/-- Each event of a history is on a scope that has been opened before. -/
def Proper (events : List Event) : Prop := isProperFrom 0 events = true

instance (events : List Event) : Decidable (Proper events) :=
  inferInstanceAs (Decidable (isProperFrom 0 events = true))

/-! ## Lineages -/

/-- The numbers and kinds of a scope and of the scopes around it, innermost first. The sites stand
latest first, so the number of a scope is the number of sites behind its own. -/
def lineage : List Site → Nat → List (Nat × ScopeKind)
  | [], _ => []
  | site :: older, number =>
    if number = older.length then (number, site.kind) :: (site.outer.map (lineage older)).getD []
    else lineage older number

/-- Whether the scope `x` is the scope `on` or one around it. -/
def IsAround (sites : List Site) (on x : Nat) : Prop := x ∈ (lineage sites on).map Prod.fst

instance (sites : List Site) (on x : Nat) : Decidable (IsAround sites on x) :=
  inferInstanceAs (Decidable (x ∈ (lineage sites on).map Prod.fst))

/-- The kinds of the scopes on the way from the scope `on` up to `x`, without that of `x`. -/
def below (sites : List Site) (on x : Nat) : List ScopeKind :=
  ((lineage sites on).takeWhile fun p => p.1 ≠ x).map Prod.snd

theorem below_cons_self (site : Site) {older : List Site} {on x : Nat} (here : on = older.length)
    (other : on ≠ x) :
    below (site :: older) on x
      = site.kind :: (site.outer.map fun o => below older o x).getD [] := by
  rw [below, lineage, if_pos here, List.takeWhile_cons, if_pos (by simpa using other)]
  cases site.outer <;> rfl

theorem below_cons_of_ne (site : Site) {older : List Site} {on : Nat} (h : on ≠ older.length)
    (x : Nat) : below (site :: older) on x = below older on x := by
  rw [below, lineage, if_neg h, ← below]

@[simp] theorem below_self (sites : List Site) (x : Nat) : below sites x x = [] := by
  induction sites with
  | nil => rfl
  | cons site older ih =>
    by_cases here : x = older.length
    · simp [below, lineage, here]
    · rw [below_cons_of_ne site here, ih]

theorem isAround_cons_self (site : Site) {older : List Site} {on : Nat} (here : on = older.length)
    (x : Nat) :
    IsAround (site :: older) on x ↔ x = on ∨ ∃ o ∈ site.outer, IsAround older o x := by
  rw [IsAround, lineage, if_pos here, List.map_cons, List.mem_cons]
  cases site.outer <;> simp [IsAround]

theorem isAround_cons_of_ne (site : Site) {older : List Site} {on : Nat} (h : on ≠ older.length)
    (x : Nat) : IsAround (site :: older) on x ↔ IsAround older on x := by
  rw [IsAround, lineage, if_neg h, ← IsAround]

theorem lt_of_isAround {sites : List Site} {on x : Nat} (around : IsAround sites on x) :
    x < sites.length := by
  induction sites generalizing on with
  | nil => cases around
  | cons site older ih =>
    rw [List.length_cons]
    by_cases here : on = older.length
    · rcases (isAround_cons_self site here x).1 around with rfl | ⟨o, _, around⟩
      · omega
      · exact Nat.lt_succ_of_lt (ih around)
    · exact Nat.lt_succ_of_lt (ih ((isAround_cons_of_ne site here x).1 around))

/-- The lineage of a scope begins with the scope itself. -/
theorem fst_of_head?_lineage {sites : List Site} {on : Nat} {p : Nat × ScopeKind}
    (h : (lineage sites on).head? = some p) : p.1 = on := by
  induction sites with
  | nil => cases h
  | cons site older ih =>
    rw [lineage] at h
    split at h
    next =>
      cases h
      rfl
    next => exact ih h

theorem exists_lineage_eq_cons {sites : List Site} {on : Nat} (h : on < sites.length) :
    ∃ kind outer, lineage sites on = (on, kind) :: outer := by
  induction sites with
  | nil => exact absurd h (Nat.not_lt_zero on)
  | cons site older ih =>
    rw [List.length_cons] at h
    rw [lineage]
    split
    next => exact ⟨_, _, rfl⟩
    next other => exact ih (by omega)

/-- No scope lies on the way exactly from a scope to itself. -/
theorem isAround_and_below_eq_nil_iff {sites : List Site} {on : Nat} (h : on < sites.length)
    (x : Nat) : IsAround sites on x ∧ below sites on x = [] ↔ on = x := by
  obtain ⟨kind, outer, eq⟩ := exists_lineage_eq_cons h
  constructor
  · rintro ⟨-, none⟩
    by_contra other
    simp [below, eq, other] at none
  · rintro rfl
    exact ⟨by simp [IsAround, eq], below_self sites on⟩

/-! ## Chains and lineages -/

/-- The kinds and places of the scopes of a forest. -/
def sites (forest : Forest) : List Site := forest.map fun p => ⟨p.scope.kind, p.outer⟩

@[simp] theorem sites_cons (p : Planted) (older : Forest) :
    sites (p :: older) = ⟨p.scope.kind, p.outer⟩ :: sites older := rfl

@[simp] theorem length_sites (forest : Forest) : forest.sites.length = forest.length :=
  List.length_map _

/-- The scope with a given number. -/
def scope? (forest : Forest) (x : Nat) : Option Scope := (forest.chain x).head?

theorem chain_cons_self (p : Planted) {older : Forest} {x : Nat} (here : x = older.length) :
    chain (p :: older) x = p.scope :: (p.outer.map (chain older)).getD [] := by
  rw [chain, if_pos here]
  cases p.outer <;> rfl

theorem chain_cons_of_ne (p : Planted) {older : Forest} {x : Nat} (h : x ≠ older.length) :
    chain (p :: older) x = chain older x := by
  rw [chain, if_neg h]

theorem scope?_cons (p : Planted) (older : Forest) (x : Nat) :
    scope? (p :: older) x = if x = older.length then some p.scope else scope? older x := by
  rw [scope?, chain]
  split <;> rfl

/-- The chain of a scope has the kinds of its lineage. -/
theorem map_kind_chain (forest : Forest) (on : Nat) :
    (forest.chain on).map Scope.kind = (lineage forest.sites on).map Prod.snd := by
  induction forest generalizing on with
  | nil => rfl
  | cons p older ih =>
    rw [sites_cons, lineage, length_sites]
    split
    next here =>
      rw [chain_cons_self p here, List.map_cons, List.map_cons]
      cases p.outer with
      | none => rfl
      | some o => exact congrArg (p.scope.kind :: ·) (ih o)
    next other =>
      rw [chain_cons_of_ne p other]
      exact ih on

theorem innerKinds_below (forest : Forest) (on x : Nat) :
    (forest.chain on).innerKinds (below forest.sites on x).length = below forest.sites on x := by
  have start : below forest.sites on x <+: (lineage forest.sites on).map Prod.snd :=
    (List.takeWhile_prefix _).map Prod.snd
  rw [Chain.innerKinds, map_kind_chain]
  exact (List.prefix_iff_eq_take.1 start).symm

/-- A scope stands in the chain of a scope inside it behind those on the way. -/
theorem getElem?_chain_below {forest : Forest} {on x : Nat} (around : IsAround forest.sites on x) :
    (forest.chain on)[(below forest.sites on x).length]? = forest.scope? x := by
  induction forest generalizing on with
  | nil => rfl
  | cons p older ih =>
    have size := length_sites older
    rw [sites_cons] at around ⊢
    by_cases here : on = older.length
    -- the latest scope: it is the one asked for, or its outer scope leads there
    · by_cases same : on = x
      · subst same
        rw [below_self, scope?, List.head?_eq_getElem?, List.length_nil]
      · rw [below_cons_self _ (here.trans size.symm) same, chain_cons_self p here]
        rcases (isAround_cons_self _ (here.trans size.symm) x).1 around with
          rfl | ⟨o, outer, around⟩
        · exact absurd rfl same
        · have other : x ≠ older.length := fun h => same (here.trans h.symm)
          have outer : p.outer = some o := outer
          rw [scope?_cons, if_neg other, outer]
          exact ih around
    · have inner := lt_of_isAround ((isAround_cons_of_ne _ (size ▸ here) x).1 around)
      rw [below_cons_of_ne _ (size ▸ here), chain_cons_of_ne p here, scope?_cons,
        if_neg (by omega)]
      exact ih ((isAround_cons_of_ne _ (size ▸ here) x).1 around)

/-! ## Replacing scopes -/

theorem replace_cons_self (p : Planted) {older : Forest} {on : Nat} (here : on = older.length)
    (s : Scope) (outer : Chain) :
    replace (p :: older) on (s :: outer)
      = { p with scope := s } :: (p.outer.map fun o => replace older o outer).getD older := by
  rw [replace, if_pos here]
  cases p.outer <;> rfl

theorem replace_cons_of_ne (p : Planted) {older : Forest} {on : Nat} (h : on ≠ older.length)
    (scopes : Chain) : replace (p :: older) on scopes = p :: replace older on scopes := by
  cases scopes with
  | nil => cases older <;> rfl
  | cons s outer => rw [replace, if_neg h]

theorem length_replace (forest : Forest) (on : Nat) (scopes : Chain) :
    (forest.replace on scopes).length = forest.length := by
  induction forest generalizing on scopes with
  | nil => rfl
  | cons p older ih =>
    by_cases here : on = older.length
    · cases scopes with
      | nil => rfl
      | cons s outer =>
        rw [replace_cons_self p here]
        cases p.outer with
        | none => rfl
        | some o => exact congrArg (· + 1) (ih o outer)
    · rw [replace_cons_of_ne p here]
      exact congrArg (· + 1) (ih on scopes)

/-- Scopes that are replaced by scopes of the same kinds keep their kinds and places. -/
theorem sites_replace {forest : Forest} {on : Nat} {scopes : Chain}
    (kinds : scopes.map Scope.kind = (forest.chain on).map Scope.kind) :
    (forest.replace on scopes).sites = forest.sites := by
  induction forest generalizing on scopes with
  | nil => rfl
  | cons p older ih =>
    by_cases here : on = older.length
    · rw [chain_cons_self p here] at kinds
      cases scopes with
      | nil => cases kinds
      | cons s outer =>
        rw [List.map_cons, List.map_cons, List.cons.injEq] at kinds
        obtain ⟨kind, kinds⟩ := kinds
        rw [replace_cons_self p here, sites_cons, sites_cons, kind]
        cases around : p.outer with
        | none => rfl
        | some o =>
          rw [around] at kinds
          exact congrArg (_ :: ·) (ih kinds)
    · rw [chain_cons_of_ne p here] at kinds
      rw [replace_cons_of_ne p here, sites_cons, sites_cons, ih kinds]

/-- A scope that is replaced becomes the one at its place of the new chain. -/
theorem scope?_replace {forest : Forest} {on : Nat} {scopes : Chain}
    (size : scopes.length = (forest.chain on).length) (x : Nat) :
    (forest.replace on scopes).scope? x = (forest.scope? x).map fun s =>
      if IsAround forest.sites on x then
        (scopes[(below forest.sites on x).length]?).getD s
      else s := by
  induction forest generalizing on scopes with
  | nil => rfl
  | cons p older ih =>
    have count := length_sites older
    by_cases here : on = older.length
    -- the chain starts at the latest scope and goes on, if at all, among the older ones
    · have there : on = (sites older).length := here.trans count.symm
      cases scopes with
      | nil => simp [chain_cons_self p here] at size
      | cons s outer =>
        rw [replace_cons_self p here, scope?_cons, scope?_cons, sites_cons]
        have rest : ((p.outer.map fun o => replace older o outer).getD older).length
            = older.length := by
          cases p.outer with
          | none => rfl
          | some o => exact length_replace older o outer
        rw [rest]
        by_cases same : x = older.length
        · have around : IsAround (⟨p.scope.kind, p.outer⟩ :: sites older) on x :=
            (isAround_cons_self _ there x).2 (Or.inl (same.trans here.symm))
          have self : on = x := here.trans same.symm
          rw [if_pos same, if_pos same, Option.map_some, if_pos around, self, below_self]
          rfl
        · have other : x ≠ on := fun h => same (h.trans here)
          rw [if_neg same, if_neg same, below_cons_self _ there other.symm]
          simp only [isAround_cons_self _ there, other, false_or]
          rw [chain_cons_self p here] at size
          cases around : p.outer with
          | none => simp
          | some o =>
            rw [around] at size
            simpa using ih (Nat.succ.inj size)
    -- the chain lies among the older scopes, so the latest one is none of its own
    · have there : on ≠ (sites older).length := fun h => here (h.trans count)
      rw [chain_cons_of_ne p here] at size
      rw [replace_cons_of_ne p here, scope?_cons, scope?_cons, length_replace, sites_cons]
      simp only [below_cons_of_ne _ there, isAround_cons_of_ne _ there]
      split
      next same =>
        have outside : ¬ IsAround (sites older) on x := fun h => by
          have := lt_of_isAround h
          omega
        rw [Option.map_some, if_neg outside]
      next => exact ih size

/-- An observation is noted exactly for the scopes around it that it reaches. -/
theorem scope?_record (forest : Forest) (on : Nat) (o : Observation) (x : Nat) :
    (forest.record on o).scope? x = (forest.scope? x).map fun s =>
      if IsAround forest.sites on x ∧ o.reaches (below forest.sites on x) s.kind then s.note o
      else s := by
  have kinds := Chain.map_kind_record (forest.chain on) o
  have size : ((forest.chain on).record o).length = (forest.chain on).length := by
    simpa using congrArg List.length kinds
  rw [record, scope?_replace size]
  by_cases around : IsAround forest.sites on x
  · simp only [around, if_true, true_and]
    rw [Chain.getElem?_record, getElem?_chain_below around, innerKinds_below]
    cases forest.scope? x <;> rfl
  · simp [around]

theorem sites_record (forest : Forest) (on : Nat) (o : Observation) :
    (forest.record on o).sites = forest.sites :=
  sites_replace (Chain.map_kind_record (forest.chain on) o)

/-! ## Facts after a history -/

/-- The observations of a history that meet a condition on the scope in which they are made and on
themselves. -/
def observed (events : List Event) (p : Nat → Observation → Bool) : List Observation :=
  ((recordings events).filter fun r => p r.1 r.2).map Prod.snd

theorem run_concat (events : List Event) (e : Event) :
    run (events ++ [e]) = (run events).take e := by
  rw [run, List.foldl_append]
  rfl

theorem openings_concat (events : List Event) (e : Event) :
    openings (events ++ [e]) = e.opened?.toList ++ openings events := by
  rw [openings, List.filterMap_append, List.reverse_append]
  cases e <;> rfl

theorem recordings_concat (events : List Event) (e : Event) :
    recordings (events ++ [e]) = recordings events ++ e.recorded?.toList := by
  rw [recordings, List.filterMap_append]
  cases e <;> rfl

/-- A forest has the sites that its history tells. -/
theorem sites_run (events : List Event) : (run events).sites = openings events := by
  induction events using List.reverseRecOn with
  | nil => rfl
  | append_singleton events e ih =>
    rw [run_concat, openings_concat, ← ih]
    cases e with
    | root => rfl
    | plant on o => rfl
    | record on o => exact sites_record (run events) on o

theorem isProperFrom_append (count : Nat) (events more : List Event) :
    isProperFrom count (events ++ more)
      = (isProperFrom count events && isProperFrom (count + (openings events).length) more) := by
  induction events generalizing count with
  | nil => simp [isProperFrom, openings]
  | cons e rest ih =>
    cases e <;> simp [isProperFrom, ih, openings, List.filterMap_cons, Event.opened?,
      Bool.and_assoc, Nat.add_assoc, Nat.add_comm 1]

theorem proper_concat {events : List Event} {e : Event} (proper : Proper (events ++ [e])) :
    Proper events ∧ ∀ r ∈ e.recorded?, r.1 < (openings events).length := by
  rw [Proper, isProperFrom_append, Bool.and_eq_true, Nat.zero_add] at proper
  refine ⟨proper.1, fun r mem => ?_⟩
  cases e with
  | root => cases mem
  | plant on o => cases mem
  | record on o =>
    cases mem
    simpa [isProperFrom] using proper.2

/-- Every observation of a history is made in a scope that the history opens. -/
theorem lt_of_mem_recordings {events : List Event} (proper : Proper events)
    {r : Nat × Observation} (mem : r ∈ recordings events) : r.1 < (openings events).length := by
  induction events using List.reverseRecOn with
  | nil => cases mem
  | append_singleton events e ih =>
    obtain ⟨before, last⟩ := proper_concat proper
    rw [recordings_concat, List.mem_append, Option.mem_toList] at mem
    rw [openings_concat, List.length_append]
    have bound : r.1 < (openings events).length := by
      rcases mem with earlier | now
      · exact ih before earlier
      · exact last r now
    omega

/-- Whether an observation made in the scope `on` comes up to the scope `x` of a given kind. -/
def comes (sites : List Site) (x : Nat) (kind : ScopeKind) (on : Nat) (o : Observation) : Bool :=
  IsAround sites on x ∧ o.reaches (below sites on x) kind

/-- Opening one more scope changes nothing for the observations made before. -/
theorem comes_cons {sites : List Site} {on : Nat} (h : on < sites.length) (site : Site) (x : Nat)
    (kind : ScopeKind) (o : Observation) :
    comes (site :: sites) x kind on o = comes sites x kind on o := by
  simp only [comes, isAround_cons_of_ne site (Nat.ne_of_lt h),
    below_cons_of_ne site (Nat.ne_of_lt h)]

theorem observed_congr {events : List Event} {p q : Nat → Observation → Bool}
    (same : ∀ r ∈ recordings events, p r.1 r.2 = q r.1 r.2) :
    observed events p = observed events q :=
  congrArg (List.map Prod.snd) (List.filter_congr same)

theorem observed_concat (events : List Event) (e : Event) (p : Nat → Observation → Bool) :
    observed (events ++ [e]) p = observed events p
      ++ ((e.recorded?.toList.filter fun r => p r.1 r.2).map Prod.snd) := by
  rw [observed, recordings_concat, List.filter_append, List.map_append, ← observed]

/-- Nothing that has been observed comes up to a scope that is yet to be opened. -/
theorem observed_comes_eq_nil (events : List Event) {x : Nat} (new : (openings events).length ≤ x)
    (kind : ScopeKind) : observed events (comes (openings events) x kind) = [] := by
  rw [observed, List.map_eq_nil_iff, List.filter_eq_nil_iff]
  intro r mem up
  have := lt_of_isAround (of_decide_eq_true up).1
  omega

/-- What has been noted for a scope after a history are the observations that come up to it. -/
theorem facts_run {events : List Event} (proper : Proper events) {x : Nat} {s : Scope}
    (found : (run events).scope? x = some s) :
    s.facts = Facts.noteAll {} (observed events (comes (openings events) x s.kind)) := by
  induction events using List.reverseRecOn generalizing s with
  | nil => cases found
  | append_singleton events e ih =>
    obtain ⟨before, last⟩ := proper_concat proper
    have count : (run events).length = (openings events).length := by
      rw [← sites_run, length_sites]
    -- an opening adds a scope of which nothing is known, and leaves the others as they are
    have opened (p : Planted) (site : Site) (fresh : p.scope.facts = {})
        (found : scope? (p :: run events) x = some s) :
        s.facts =
          Facts.noteAll {} (observed events (comes (site :: openings events) x s.kind)) := by
      rw [observed_congr fun r mem =>
        comes_cons (lt_of_mem_recordings before mem) site x s.kind r.2]
      rw [scope?_cons] at found
      split at found
      next new =>
        cases found
        rw [observed_comes_eq_nil events (by omega), fresh]
        rfl
      next => exact ih before found
    rw [run_concat] at found
    rw [openings_concat, observed_concat]
    cases e with
    | root => simpa [Event.opened?, Event.recorded?] using opened _ _ rfl found
    | plant on o => simpa [Event.opened?, Event.recorded?] using opened _ _ rfl found
    | record on o =>
      rw [take, scope?_record, sites_run] at found
      obtain ⟨earlier, there, rfl⟩ := Option.map_eq_some_iff.1 found
      have known := ih before there
      -- the list of observations grows exactly if the scope takes a note
      by_cases up : comes (openings events) x earlier.kind on o
      · have reached := of_decide_eq_true up
        rw [if_pos reached]
        change (earlier.facts.note o) = _
        rw [known]
        simp [Facts.noteAll, Event.opened?, Event.recorded?, Scope.note, up]
      · have missed : ¬ (IsAround (openings events) on x ∧
            o.reaches (below (openings events) on x) earlier.kind) := fun h => up (decide_eq_true h)
        rw [if_neg missed]
        simpa [Event.opened?, Event.recorded?, up] using known

theorem exists_chain_eq_cons {forest : Forest} {x : Nat} (h : x < forest.length) :
    ∃ s outer, forest.chain x = s :: outer := by
  induction forest with
  | nil => exact absurd h (Nat.not_lt_zero x)
  | cons p older ih =>
    by_cases here : x = older.length
    · exact ⟨_, _, chain_cons_self p here⟩
    · rw [chain_cons_of_ne p here]
      rw [List.length_cons] at h
      exact ih (by omega)

/-- Every scope that a history opens is there, inside the scopes of its lineage and with the
observations that come up to it. -/
theorem exists_chain_run {events : List Event} (proper : Proper events) {x : Nat}
    (isOpen : x < (openings events).length) :
    ∃ s outer, (run events).chain x = s :: outer ∧
      (s :: outer).map Scope.kind = (lineage (openings events) x).map Prod.snd ∧
      s.facts = Facts.noteAll {} (observed events (comes (openings events) x s.kind)) := by
  rw [← sites_run, length_sites] at isOpen
  obtain ⟨s, outer, chain⟩ := exists_chain_eq_cons isOpen
  have found : (run events).scope? x = some s := by rw [scope?, chain, List.head?_cons]
  refine ⟨s, outer, chain, ?_, facts_run proper found⟩
  rw [← chain, map_kind_chain, sites_run]

end Forest

end CodeSmell
