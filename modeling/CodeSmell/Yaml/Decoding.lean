import CodeSmell.Fields
import CodeSmell.Text.Base64
import CodeSmell.Text.Quoted
import CodeSmell.Yaml.Document
import CodeSmell.Yaml.Resolution

/-!
# Values of YAML nodes

A node is decoded into a value of an expected type. A value of a wrong type is noted and decoding
goes on in the order of the document, so that all of them can be reported together. A scalar that
contradicts its tag ends it, and so do a reference to a node that contains the reference and too
many steps that come from references.

A mapping can take entries over from others: its key `<<` names them. Its own entries come first,
and of entries with one key the first counts.
-/

set_option autoImplicit false

namespace CodeSmell

namespace Yaml

/-! ## Faults -/

/-- A value that does not fit its key, or a key that occurs twice. -/
inductive TypeFault where
  | mismatch (line : Nat) (tag value expected : String)
  | repeatedKey (line : Nat) (key : String) (first : Nat)
  | alreadySet (line : Nat) (key : Text) (expected : String)

/-- A text as messages show it: of a long one the first bytes. -/
def abbreviate (t : Text) : Text :=
  if t.length ≤ 10 then t else t.take 7 ++ "..."

/-- The wording of a fault. A value with the tag of a collection is shown without quotes; that of a
collection itself is empty. -/
def TypeFault.message : TypeFault → Text
  | .mismatch line tag value expected =>
    let shown : Text :=
      if tag = "!!seq" || tag = "!!map" then value else " \x60" ++ abbreviate value ++ "\x60"
    s!"line {line}: cannot unmarshal {tag}" ++ shown ++ s!" into {expected}"
  | .repeatedKey line key first =>
    s!"line {line}: mapping key " ++ Text.ofChars (Quoted.encode key) ++
      s!" already defined at line {first}"
  | .alreadySet line key expected =>
    s!"line {line}: field " ++ key ++ s!" already set in type {expected}"

/-! ## Decoding -/

/-- What references mean: the named nodes, the numbers of the references that are being followed,
and a bound on chains of mappings. -/
structure NodeScope where
  named : List (Nat × Node)
  followed : List Nat := []
  bound : Nat

/-- What has been met so far: faults, latest first, the number of nodes decoded, and how many of
them were reached through references. -/
structure Progress where
  faults : List TypeFault := []
  decoded : Nat := 0
  referred : Nat := 0

/-- Why decoding ends early. -/
inductive DecodeError where
  | unreadable (problem : Problem)
  /-- A mapping that takes entries over has a collection as a key. -/
  | collectionKey

/-- A computation that collects type faults and may end early. -/
abbrev Decoding := ReaderT NodeScope (StateT Progress (Except DecodeError))

/-- Reports a fault. -/
def report (fault : TypeFault) : Decoding Unit :=
  modify fun p => { p with faults := fault :: p.faults }

/-- Ends decoding with a problem that has no line. -/
def refuse {α : Type} (text : String) : Decoding α := throw (.unreadable ⟨0, text⟩)

namespace Progress

/-- The number of nodes up to which nearly all may be reached through references. -/
def fewNodes : Nat := 400000

/-- The number of nodes from which on only a tenth may be reached through references. -/
def manyNodes : Nat := 4000000

/-- Whether too many nodes were reached through references: more than 99 in 100, and in large
documents less, down to 10 in 100. Small numbers of nodes do not matter. -/
def isExcessive (p : Progress) : Bool :=
  let range := manyNodes - fewNodes
  let beyond := min (p.decoded - fewNodes) range
  100 < p.referred && 1000 < p.decoded &&
    p.decoded * (99 * range - 89 * beyond) < p.referred * (100 * range)

end Progress

/-- Counts a node. -/
def countNode : Decoding Unit := do
  let scope ← read
  modify fun p =>
    { p with
      decoded := p.decoded + 1
      referred := if scope.followed.isEmpty then p.referred else p.referred + 1 }
  if (← get).isExcessive then refuse "document contains excessive aliasing"

/-- Decodes the node of a document, which itself counts as one. The faults are in the order in which
they were met. -/
def Document.decode {α : Type} (d : Document) (decode : Node → Decoding α) :
    Except DecodeError (α × List TypeFault) := do
  let (a, p) ← ((decode d.root).run ⟨d.named, [], d.bound⟩).run { decoded := 1 }
  pure (a, p.faults.reverse)

namespace Node

/-- Decodes the node that a reference refers to, and any other node as it is. -/
def follow {α : Type} (decode : Node → Decoding α) (node : Node) : Decoding α := do
  countNode
  match node with
  | .reference name target serial _ => do
    let scope ← read
    let cyclic := s!"anchor '{name}' value contains itself"
    if scope.followed.contains serial then refuse cyclic
    else match scope.named.lookup target with
      | some found =>
        withReader (fun scope => { scope with followed := serial :: scope.followed }) do
          countNode
          decode found
      | none => refuse cyclic
  | node => decode node

/-! ## Scalars -/

/-- Whether a node is the key under which a mapping names the mappings it takes entries from. -/
def isMergeKey : Node → Bool
  | .scalar value plain tag _ =>
    value == "<<" && (tag == some "!!merge" || (plain && tag.isNone))
  | _ => false

/-- The tags that say how a scalar has to be spelled. -/
def spellingTags : List String := ["!!null", "!!bool", "!!int", "!!float", "!!timestamp"]

/-- What a scalar denotes, and its text. With a tag for a spelling the scalar has to be spelled in
that way, except that an integer may be tagged as a number; with the tag for bytes it denotes
these; and with any other tag it denotes its text. -/
def meaning (value : String) (plain : Bool) (tag : Option String) : Decoding (Text × Meaning) :=
  match tag with
  | none => pure (value, if plain then .ofPlain value else .string)
  | some tag =>
    let spelled := Meaning.ofPlain value
    let contradiction := s!"cannot decode {spelled.tag} \x60{value}\x60 as a {tag}"
    if tag = "!!binary" then
      match Base64.decode? value.toList with
      | some bytes => pure (bytes, .string)
      | none => refuse "!!binary value contains invalid base64 data"
    else if !spellingTags.contains tag then pure (value, .string)
    else if tag = spelled.tag then pure (value, spelled)
    else match spelled with
      | .int n =>
        if tag = "!!float" && fitsInt64 n then pure (value, .float (Float.ofInt n))
        else refuse contradiction
      | _ => refuse contradiction

/-- Whether a node denotes nothing. -/
def isNull : Node → Decoding Bool
  | .scalar value plain tag _ => do
    match (← meaning value plain tag).2 with
    | .null => pure true
    | _ => pure false
  | _ => pure false

/-- Reports that a node is not of the expected type. -/
def mismatch (expected : String) (node : Node) : Decoding Unit :=
  match node with
  | .scalar value plain tag line => do
    let (_, found) ← meaning value plain tag
    let usual := if node.isMergeKey then "!!merge" else found.tag
    report (.mismatch line (tag.getD usual) value expected)
  | .sequence _ tag line => report (.mismatch line (tag.getD "!!seq") "" expected)
  | .mapping _ tag line => report (.mismatch line (tag.getD "!!map") "" expected)
  | .reference _ _ _ _ => pure ()

/-! ## Keys -/

/-- Whether two keys are the same. -/
def sameKey : Node → Node → Bool
  | .scalar a _ _ _, .scalar b _ _ _ => a == b
  | .sequence _ _ _, .sequence _ _ _ => true
  | .mapping _ _ _, .mapping _ _ _ => true
  | .reference a _ _ _, .reference b _ _ _ => a == b
  | _, _ => false

/-- The text of a scalar or the name of a reference; collections have none. -/
def text : Node → String
  | .scalar value _ _ _ => value
  | .reference name _ _ _ => name
  | _ => ""

/-- The faults of keys that occur more than once, for each key and each later occurrence of it. -/
def repeatedKeys : List Node → List TypeFault
  | [] => []
  | key :: others =>
    (others.filter (sameKey key)).map (fun later =>
      TypeFault.repeatedKey later.line later.text key.line) ++ repeatedKeys others

/-- Reports that a node is not of the expected type, or that it repeats keys if it does. -/
def refuseNode (expected : String) (node : Node) : Decoding Unit :=
  match node with
  | .mapping entries _ _ =>
    match repeatedKeys (entries.map Prod.fst) with
    | [] => node.mismatch expected
    | faults => faults.forM report
  | _ => node.mismatch expected

/-! ## Typed values -/

/-- The value of a scalar that has to be of a certain type; a null has none. -/
def decodeScalar {α : Type} (expected : String) (value? : Text → Meaning → Option α) :
    Node → Decoding (Option α) :=
  follow fun node =>
    match node with
    | .scalar value plain tag _ => do
      match ← meaning value plain tag with
      | (_, .null) => pure none
      | (text, d) =>
        match value? text d with
        | some a => pure (some a)
        | none => do
          node.mismatch expected
          pure none
    | _ => do
      node.refuseNode expected
      pure none

/-- The integer part of a number in a signed 64-bit word; the least word stands for numbers below
the range. -/
def truncate (x : Float) : Int :=
  if x < -9223372036854775808.0 || 9223372036854775808.0 ≤ x then -9223372036854775808
  else x.toInt64.toInt

/-- The integer of a scalar. The fraction of a number is dropped. -/
def decodeInt : Node → Decoding (Option Int) :=
  decodeScalar "int" fun _ d =>
    match d with
    | .int n => if fitsInt64 n then some n else none
    | .float x => if x ≤ 9223372036854775808.0 then some (truncate x) else none
    | _ => none

/-- The truth value of a scalar, which may also be a word for yes or no. -/
def decodeBool : Node → Decoding (Option Bool) :=
  decodeScalar "bool" fun value d =>
    match d with
    | .bool b => some b
    | .string =>
      if yesWords.any (Text.ofString · = value) then some true
      else if noWords.any (Text.ofString · = value) then some false
      else none
    | _ => none

/-- The text of a scalar, whatever it denotes. -/
def decodeString : Node → Decoding (Option Text) :=
  decodeScalar "string" fun value _ => some value

/-- The texts of a sequence. Items that denote nothing are left out. -/
def decodeStrings : Node → Decoding (Option (List Text)) :=
  follow fun node =>
    match node with
    | .sequence items _ _ => do
      let texts ← items.mapM decodeString
      pure (some (texts.filterMap id))
    | _ => do
      if !(← node.isNull) then node.refuseNode "[]string"
      pure none

/-! ## Entries -/

/-- Whether a node is a mapping or refers to one. -/
def isMapping : Node → Decoding Bool
  | .mapping _ _ _ => pure true
  | .reference _ target _ _ => do
    match (← read).named.lookup target with
    | some (.mapping _ _ _) => pure true
    | _ => pure false
  | _ => pure false

/-- The mappings from which a mapping takes entries over. -/
def sources (node : Node) : Decoding (List Node) := do
  let text := "map merge requires map or sequence of maps as the value"
  match node with
  | .sequence items _ _ => if ← items.allM isMapping then pure items else refuse text
  | _ => if ← node.isMapping then pure [node] else refuse text

/-- The keys of a mapping that denote texts. A collection is no key here. -/
def textKeys (entries : List (Node × Node)) : Decoding (List Text) := do
  let keys ← entries.mapM fun (key, _) => key.follow fun key =>
    match key with
    | .scalar value plain tag _ => do
      match ← meaning value plain tag with
      | (text, .string) => pure (some text)
      | _ => pure none
    | .mapping entries _ _ =>
      match repeatedKeys (entries.map Prod.fst) with
      | [] => throw .collectionKey
      | faults => do
        faults.forM report
        pure none
    | _ => throw .collectionKey
  pure (keys.filterMap id)

end Node

/-- An entry of a mapping: its key, the line of that, whether the key stood in the mapping before,
and the value. -/
structure KeyedEntry where
  key : Text
  line : Nat
  again : Bool
  value : Node

namespace Node

/-- Goes through the entries that stand in a mapping itself. `before` lists the keys of this mapping
so far. With keys in `seen`, entries under these are passed over, and the others add theirs. -/
def foldOwn {σ : Type} (step : KeyedEntry → σ → Decoding σ) (before : List Text)
    (seen : Option (List Text)) (s : σ) :
    List (Node × Node) → Decoding (σ × Option (List Text))
  | [] => pure (s, seen)
  | (key, value) :: rest =>
    if key.isMergeKey then foldOwn step before seen s rest
    else do
      match ← key.decodeString with
      | none => foldOwn step before seen s rest
      | some name =>
        if seen.any (·.contains name) then foldOwn step before seen s rest
        else do
          let s ← step ⟨name, key.line, before.contains name, value⟩ s
          foldOwn step (name :: before) (seen.map (name :: ·)) s rest

/-- Goes through the entries of a mapping. If it names others to take entries from, `takeOver` goes
on with its entries and that name. A node without entries has none; one that is no mapping is
reported. -/
def foldMapping {σ : Type} (expected : String) (step : KeyedEntry → σ → Decoding σ)
    (takeOver : List (Node × Node) → Node → σ × Option (List Text) →
      Decoding (σ × Option (List Text)))
    (seen : Option (List Text)) (s : σ) : Node → Decoding (σ × Option (List Text)) :=
  follow fun node =>
    match node with
    | .mapping entries _ _ =>
      match repeatedKeys (entries.map Prod.fst) with
      | [] => do
        let result ← foldOwn step [] seen s entries
        match entries.find? (·.1.isMergeKey) with
        | some (_, value) => takeOver entries value result
        | none => pure result
      | faults => do
        faults.forM report
        pure (s, seen)
    | _ => do
      if !(← node.isNull) then node.mismatch expected
      pure (s, seen)

/-- Goes through the entries of a mapping and then through those it takes over, unless their keys
came before. -/
def foldEntries {σ : Type} (fuel : Nat) (expected : String) (step : KeyedEntry → σ → Decoding σ)
    (seen : Option (List Text)) (s : σ) (node : Node) : Decoding (σ × Option (List Text)) :=
  match fuel with
  | 0 => node.foldMapping expected step (fun _ _ result => pure result) seen s
  | fuel + 1 =>
    node.foldMapping expected step (fun entries value (s, seen) => do
      let known ← match seen with
        | some keys => pure keys
        | none => textKeys entries
      (← value.sources).foldlM (fun (s, seen) source =>
        foldEntries fuel expected step seen s source) (s, some known)) seen s

end Node

/-- Goes through all entries of a mapping. -/
def eachEntry {σ : Type} (expected : String) (step : KeyedEntry → σ → Decoding σ) (node : Node)
    (s : σ) : Decoding σ := do
  pure (← node.foldEntries (← read).bound expected step none s).1

/-! ## Descriptions -/

/-- A key of a mapping, and how its value changes the thing that the mapping describes. -/
structure KeyRule (σ : Type) where
  name : String
  lay : Node → σ → Decoding σ

namespace KeyRule

/-- A key whose value replaces a part, unless it is null. -/
def ofScalar {σ α : Type} (name : String) (decode : Node → Decoding (Option α)) (set : σ → α → σ) :
    KeyRule σ :=
  ⟨name, fun node s => do
    match ← decode node with
    | some a => pure (set s a)
    | none => pure s⟩

/-- A key whose value replaces a part that may be missing. -/
def ofOptional {σ α : Type} (name : String) (decode : Node → Decoding (Option α))
    (set : σ → Option α → σ) : KeyRule σ :=
  ⟨name, fun node s => do pure (set s (← decode node))⟩

end KeyRule

/-- Lays the values of a mapping over what they describe. Unknown keys are ignored, and a known one
that occurs again is reported. -/
def layKeys {σ : Type} (expected : String) (rules : List (KeyRule σ)) (node : Node) (s : σ) :
    Decoding σ :=
  eachEntry expected (fun entry s =>
    match rules.find? (Text.ofString ·.name = entry.key) with
    | none => pure s
    | some rule =>
      if entry.again then do
        report (.alreadySet entry.line entry.key expected)
        pure s
      else rule.lay entry.value s) node s

/-- A key whose value is a mapping that is laid over a part. -/
def KeyRule.nested {σ τ : Type} (name expected : String) (rules : List (KeyRule τ)) (get : σ → τ)
    (set : σ → τ → σ) : KeyRule σ :=
  ⟨name, fun node s => do pure (set s (← layKeys expected rules node (get s)))⟩

/-- A table from the keys of a mapping to what their values describe. -/
def decodeTable {α : Type} (expected : String) (decode : Node → Decoding α) (node : Node) :
    Decoding (Fields Text α) :=
  eachEntry expected (fun entry table => do
    pure (table.insert entry.key (← decode entry.value))) node .empty

end Yaml

end CodeSmell
