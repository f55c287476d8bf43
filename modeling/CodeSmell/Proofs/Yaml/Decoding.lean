import CodeSmell.Proofs.Encoding
import CodeSmell.Proofs.Fields
import CodeSmell.Yaml.Codec
import CodeSmell.Yaml.Decoding
import Mathlib.Data.List.Forall2

/-!
# Values that nodes denote

Outside of references decoding only counts nodes (`Decodes`). A node denotes a value if it is
decoded as that value (`Node.Denotes`). For a table it is enough to know what each entry does
(`Lays`): the keys of the node are its names, none of them occurs twice, and none takes entries over
from elsewhere.

A codec keeps a table if what it writes of the table is read as a document that denotes the table
(`Codec.Keeps`). It need not keep every table: a name may be spelled like a key that takes entries
over.
-/

set_option autoImplicit false

namespace CodeSmell

namespace Yaml

/-! ## Computations without faults -/

/-- A computation that, outside of any reference, comes to a result and reports nothing. -/
def Decodes {α : Type} (x : Decoding α) (a : α) : Prop :=
  ∀ (scope : NodeScope) (p : Progress), scope.followed = [] → p.referred = 0 →
    ∃ n, x scope p = .ok (a, { p with decoded := n })

variable {α β σ τ : Type}

theorem Decodes.pure (a : α) : Decodes (pure a) a := fun _ p _ _ => ⟨p.decoded, rfl⟩

theorem Decodes.bind {x : Decoding α} {f : α → Decoding β} {a : α} {b : β} (first : Decodes x a)
    (second : Decodes (f a) b) : Decodes (x >>= f) b := by
  intro scope p outside unreferred
  obtain ⟨n, ran⟩ := first scope p outside unreferred
  obtain ⟨m, ran'⟩ := second scope { p with decoded := n } outside unreferred
  refine ⟨m, ?_⟩
  change (x scope p >>= fun r => f r.1 scope r.2) = _
  rw [ran]
  exact ran'

theorem decodes_countNode : Decodes countNode () := by
  intro scope p outside unreferred
  have quiet (n : Nat) : Progress.isExcessive { p with decoded := n } = false := by
    simp [Progress.isExcessive, unreferred]
  refine ⟨p.decoded + 1, ?_⟩
  change (if Progress.isExcessive { p with
      decoded := p.decoded + 1
      referred := if scope.followed.isEmpty then p.referred else p.referred + 1 } = true
    then _ else _ : Decoding Unit) scope _ = _
  rw [outside]
  change (if Progress.isExcessive { p with decoded := p.decoded + 1 } = true
    then _ else _ : Decoding Unit) scope _ = _
  rw [quiet]
  rfl

theorem decodes_follow {decode : Node → Decoding α} {node : Node} {a : α}
    (own : ∀ name target serial line, node ≠ .reference name target serial line)
    (decoded : Decodes (decode node) a) : Decodes (node.follow decode) a := by
  cases node with
  | reference name target serial line => exact absurd rfl (own name target serial line)
  | scalar | sequence | mapping => exact decodes_countNode.bind decoded

theorem decodes_mapM {ι : Type} {f : ι → Decoding α} {xs : List ι} {as : List α}
    (each : List.Forall₂ (fun x a => Decodes (f x) a) xs as) : Decodes (xs.mapM f) as := by
  induction each with
  | nil => exact Decodes.pure []
  | cons first _ ih =>
    rw [List.mapM_cons]
    exact first.bind (ih.bind (Decodes.pure _))

/-- A document whose node decodes without a fault. -/
theorem decode_of_decodes {document : Document} {decode : Node → Decoding α} {a : α}
    (decoded : Decodes (decode document.root) a) : document.decode decode = .ok (a, []) := by
  obtain ⟨n, ran⟩ := decoded ⟨document.named, [], document.bound⟩ { decoded := 1 } rfl rfl
  exact (congrArg (· >>= _) ran).trans rfl

/-! ## Nodes and values -/

mutual
/-- A node that is decoded as a value. -/
inductive Node.Denotes : Node → Value → Prop
  | int {node : Node} {n : Int} (decoded : Decodes node.decodeInt (some n)) :
    Node.Denotes node (.int n)
  | bool {node : Node} {b : Bool} (decoded : Decodes node.decodeBool (some b)) :
    Node.Denotes node (.bool b)
  | text {node : Node} {t : Text} (decoded : Decodes node.decodeString (some t)) :
    Node.Denotes node (.text t)
  | list {node : Node} {items : List Text} (decoded : Decodes node.decodeStrings (some items)) :
    Node.Denotes node (.list items)
  | table {entries : List (Node × Node)} {tag : Option String} {line : Nat}
    {fields : List (Text × Value)} (single : Node.repeatedKeys (entries.map Prod.fst) = [])
    (own : ∀ entry ∈ entries, entry.1.isMergeKey = false) (denote : EntriesDenote entries fields) :
    Node.Denotes (.mapping entries tag line) (.table fields)

/-- Entries whose keys are decoded as names and whose nodes denote the values of these. -/
inductive EntriesDenote : List (Node × Node) → List (Text × Value) → Prop
  | nil : EntriesDenote [] []
  | cons {key node : Node} {name : Text} {v : Value} {entries : List (Node × Node)}
    {fields : List (Text × Value)} (named : Decodes key.decodeString (some name))
    (denotes : Node.Denotes node v) (rest : EntriesDenote entries fields) :
    EntriesDenote ((key, node) :: entries) ((name, v) :: fields)
end

/-- What the codec writes of a table is read as a document that denotes the table. -/
def Codec.Keeps (y : Codec) (fields : List (Text × Value)) : Prop :=
  ∃ document, y.read (y.write fields) = .ok (some document) ∧
    document.root.Denotes (.table fields)

/-! ## Entries -/

/-- What an entry does to a state, whatever the node that denotes its value. -/
def Takes (step : KeyedEntry → σ → Decoding σ) (name : Text) (v : Value) (s s' : σ) : Prop :=
  ∀ node line, node.Denotes v → Decodes (step ⟨name, line, false, node⟩ s) s'

/-- What entries do to a state, one after the other. -/
inductive Lays (step : KeyedEntry → σ → Decoding σ) : List (Text × Value) → σ → σ → Prop
  | nil (s : σ) : Lays step [] s s
  | cons {name : Text} {v : Value} {fields : List (Text × Value)} {s s' s'' : σ}
    (first : Takes step name v s s') (rest : Lays step fields s' s'') :
    Lays step ((name, v) :: fields) s s''

variable {step : KeyedEntry → σ → Decoding σ} {fields more : List (Text × Value)} {s s' s'' : σ}
  {entries : List (Node × Node)} {node : Node}

theorem Lays.append (first : Lays step fields s s') (second : Lays step more s' s'') :
    Lays step (fields ++ more) s s'' := by
  induction first with
  | nil => exact second
  | cons takes _ ih => exact .cons takes (ih second)

namespace Node

theorem decodes_foldOwn (lays : Lays step fields s s') (denote : EntriesDenote entries fields)
    (own : ∀ entry ∈ entries, entry.1.isMergeKey = false) (distinct : (fields.map Prod.fst).Nodup)
    (before : List Text) (fresh : ∀ name ∈ before, name ∉ fields.map Prod.fst) :
    Decodes (foldOwn step before none s entries) (s', none) := by
  -- `before` holds the keys in front, and no name that is still to come is one of them
  induction lays generalizing entries before with
  | nil =>
    cases denote
    exact Decodes.pure _
  | @cons name v fields s s' s'' takes _ ih =>
    cases denote with
    | cons named denotes rest =>
      obtain ⟨new, distinct⟩ := List.nodup_cons.1 distinct
      obtain ⟨ownFirst, own⟩ := List.forall_mem_cons.1 own
      have again : before.contains name = false := by
        rw [List.contains_eq_mem, decide_eq_false_iff_not]
        exact fun mem => fresh name mem List.mem_cons_self
      rw [foldOwn, ownFirst, if_neg Bool.false_ne_true]
      refine named.bind ?_
      dsimp only
      rw [Option.any_none, if_neg Bool.false_ne_true, again]
      refine (takes _ _ denotes).bind (ih rest own distinct (name :: before) ?_)
      intro other mem
      rcases List.mem_cons.1 mem with rfl | mem
      · exact new
      · exact fun later => fresh other mem (List.mem_cons_of_mem _ later)

theorem decodes_foldMapping (lays : Lays step fields s s') (distinct : (fields.map Prod.fst).Nodup)
    (denotes : node.Denotes (.table fields)) (expected : String)
    (takeOver : List (Node × Node) → Node → σ × Option (List Text) →
      Decoding (σ × Option (List Text))) :
    Decodes (node.foldMapping expected step takeOver none s) (s', none) := by
  cases denotes with
  | @table entries tag line fields single own denote =>
    have noMerge : entries.find? (·.1.isMergeKey) = none :=
      List.find?_eq_none.2 fun entry mem => by simp [own entry mem]
    refine decodes_follow (by simp) ?_
    dsimp only
    rw [single, noMerge]
    exact (decodes_foldOwn lays denote own distinct [] (by simp)).bind (Decodes.pure _)

theorem decodes_foldEntries (lays : Lays step fields s s') (distinct : (fields.map Prod.fst).Nodup)
    (denotes : node.Denotes (.table fields)) (fuel : Nat) (expected : String) :
    Decodes (node.foldEntries fuel expected step none s) (s', none) := by
  cases fuel <;> exact decodes_foldMapping lays distinct denotes expected _

end Node

theorem decodes_eachEntry (lays : Lays step fields s s') (distinct : (fields.map Prod.fst).Nodup)
    (denotes : node.Denotes (.table fields)) (expected : String) :
    Decodes (eachEntry expected step node s) s' := by
  intro scope p outside unreferred
  have whole := (Node.decodes_foldEntries lays distinct denotes scope.bound expected).bind
    (f := fun result => pure result.1) (Decodes.pure s')
  exact whole scope p outside unreferred

/-! ## Descriptions -/

/-- What an entry does to the thing that the keys describe. -/
def layEntry (expected : String) (rules : List (KeyRule σ)) (entry : KeyedEntry) (s : σ) :
    Decoding σ :=
  match rules.find? (Text.ofString ·.name = entry.key) with
  | none => pure s
  | some rule =>
    if entry.again then do
      report (.alreadySet entry.line entry.key expected)
      pure s
    else rule.lay entry.value s

theorem decodes_layKeys {expected : String} {rules : List (KeyRule σ)}
    (lays : Lays (layEntry expected rules) fields s s') (distinct : (fields.map Prod.fst).Nodup)
    (denotes : node.Denotes (.table fields)) : Decodes (layKeys expected rules node s) s' :=
  decodes_eachEntry lays distinct denotes expected

variable {name : String}

theorem find?_rule {rules : List (KeyRule σ)} {rule : KeyRule σ}
    (found : rules.find? (·.name = name) = some rule) :
    rules.find? (Text.ofString ·.name = Text.ofString name) = some rule := by
  rw [← found]
  exact congrArg rules.find? (funext fun rule => decide_eq_decide.2 Text.ofString_inj)

theorem takes_rule {expected : String} {rules : List (KeyRule σ)} {rule : KeyRule σ} {v : Value}
    (found : rules.find? (·.name = name) = some rule)
    (lays : ∀ node, node.Denotes v → Decodes (rule.lay node s) s') :
    Takes (layEntry expected rules) (Text.ofString name) v s s' := by
  intro node line denotes
  rw [layEntry, find?_rule found]
  exact lays node denotes

theorem decodes_ofScalar {decode : Node → Decoding (Option α)} {set : σ → α → σ} {a : α}
    (decoded : Decodes (decode node) (some a)) :
    Decodes ((KeyRule.ofScalar name decode set).lay node s) (set s a) :=
  decoded.bind (Decodes.pure _)

theorem decodes_ofOptional {decode : Node → Decoding (Option α)} {set : σ → Option α → σ}
    {a : Option α} (decoded : Decodes (decode node) a) :
    Decodes ((KeyRule.ofOptional name decode set).lay node s) (set s a) :=
  decoded.bind (Decodes.pure _)

theorem decodes_nested {expected : String} {rules : List (KeyRule τ)} {get : σ → τ}
    {set : σ → τ → σ} {t : τ} (laid : Decodes (layKeys expected rules node (get s)) t) :
    Decodes ((KeyRule.nested name expected rules get set).lay node s) (set s t) :=
  laid.bind (Decodes.pure _)

/-- A table of values that are decoded one by one. -/
theorem decodes_table {expected : String} {decode : Node → Decoding α} {write : β → Value}
    {stored : β → α} {items : List (Text × β)}
    (decodes : ∀ item ∈ items, ∀ node, node.Denotes (write item.2) →
      Decodes (decode node) (stored item.2))
    (distinct : (items.map Prod.fst).Nodup)
    (denotes : node.Denotes (.table (items.map fun item => (item.1, write item.2)))) :
    Decodes (decodeTable expected decode node)
      (Fields.ofList (items.map fun item => (item.1, stored item.2))) := by
  rw [← names_map write] at distinct
  refine decodes_eachEntry ?_ distinct denotes expected
  rw [Fields.ofList]
  generalize (Fields.empty : Fields Text α) = table
  clear distinct denotes
  induction items generalizing table with
  | nil => exact .nil table
  | cons item items ih =>
    refine .cons ?_ (ih (fun other mem => decodes other (List.mem_cons_of_mem _ mem)) _)
    intro node line denotes
    exact (decodes item List.mem_cons_self node denotes).bind (Decodes.pure _)

end Yaml

end CodeSmell
