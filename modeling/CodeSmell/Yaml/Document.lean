import CodeSmell.Yaml.Token.Scan

/-!
# YAML documents

The tokens of a text are arranged into the node of its first document. In flow style brackets and
commas decide what belongs together; in block style the tokens for the starts and ends of
collections do. A sequence that is the value of a mapping may do without them. What follows the
first document is not arranged.

A node can be given a name, by which later nodes refer to it. Each node uses at least one token or
belongs to a collection that does, so that a budget of three steps for each token is enough.
-/

set_option autoImplicit false

namespace CodeSmell

namespace Yaml

/-- What is left of the tokens, and the names so far. -/
structure Arrangement where
  tokens : List Token
  problem : Option Problem
  /-- The numbers of named nodes by their names, latest first. -/
  names : List (String × Nat) := []
  /-- The named nodes that are complete, by their numbers. -/
  named : List (Nat × Node) := []
  /-- The meanings of handles in tags. -/
  handles : List (String × String) := []
  /-- A number that no node has yet. -/
  fresh : Nat := 0

/-- A computation that uses tokens and may meet a problem. -/
abbrev Arranging := StateT Arrangement (Except Problem)

namespace Arranging

/-- The next token. Behind the last one stands the problem that ended the tokens. -/
def peek : Arranging Token := do
  let s ← get
  match s.tokens with
  | token :: _ => pure token
  | [] => throw (s.problem.getD ⟨0, "did not find expected node content"⟩)

/-- Goes past the next token. -/
def skip : Arranging Unit := modify fun s => { s with tokens := s.tokens.drop 1 }

/-- A problem on a line, inside something that starts on the line `start`; zero is written for
problems that stand alone. It is attributed to the line before the one where that starts, and if
there is none to the line before the problem. -/
def refuse {α : Type} (start line : Nat) (text : String) : Arranging α :=
  throw ⟨if 1 < start then start - 1 else line - 1, text⟩

/-- A problem with the next token. -/
def misplaced {α : Type} (start : Nat) (text : String) : Arranging α := do
  refuse start (← peek).line text

/-- A number that no node has. -/
def number : Arranging Nat := do
  let s ← get
  set { s with fresh := s.fresh + 1 }
  pure s.fresh

/-- Gives a name to a node that is about to be read. -/
def name (name : String) : Arranging Nat := do
  let n ← number
  modify fun s => { s with names := (name, n) :: s.names }
  pure n

end Arranging

/-- What may stand in front of a node: a name, and a tag, which may denote nothing. -/
structure NodeMarks where
  anchor : Option String := none
  tag : Option String := none
  isTagged : Bool := false

/-- The usual short form of a tag. -/
def shortTag (tag : String) : String :=
  let standard := "tag:yaml.org,2002:"
  if tag.startsWith standard then "!!" ++ String.ofList (tag.toList.drop standard.length) else tag

/-- The tag that a handle and what follows it denote; an exclamation mark alone denotes none. -/
def resolveTag (start line : Nat) (handle suffix : String) : Arranging (Option String) := do
  if handle.isEmpty then pure (if suffix = "!" then none else some (shortTag suffix))
  else
    let usual := [("!", "!"), ("!!", "tag:yaml.org,2002:")]
    match ((← get).handles ++ usual).lookup handle with
    | some meaning => pure (some (shortTag (meaning ++ suffix)))
    | none => Arranging.refuse start line "found undefined tag handle"

/-- Reads the name and the tag of a node, in either order. -/
def arrangeMarks (start : Nat) : Arranging NodeMarks := do
  let anchor? : Arranging (Option String) := do
    match (← Arranging.peek).kind with
    | .anchor name => do
      Arranging.skip
      pure (some name)
    | _ => pure none
  let tag? : Arranging (Option (Nat × String × String)) := do
    let token ← Arranging.peek
    match token.kind with
    | .tag handle suffix => do
      Arranging.skip
      pure (some (token.line, handle, suffix))
    | _ => pure none
  let early ← anchor?
  let tag ← tag?
  let anchor ← if early.isNone && tag.isSome then anchor? else pure early
  let _ ← Arranging.peek
  match tag with
  | some (line, handle, suffix) => pure ⟨anchor, ← resolveTag start line handle suffix, true⟩
  | none => pure ⟨anchor, none, false⟩

/-- Whether a tag or a name stands in front of a node. -/
def NodeMarks.hasAny (m : NodeMarks) : Bool := m.anchor.isSome || m.isTagged

/-- Whether a token stands where the content of a node might, but ends the node's place. -/
def endsEntry (kind : TokenKind) : Bool :=
  [TokenKind.blockEntry, .key, .value, .blockEnd].contains kind

mutual
/-- Arranges a node. `block` says whether a collection of block style may stand here, and `bare`
whether a sequence without tokens for its start and end may. -/
def arrangeNode (fuel : Nat) (block bare : Bool) : Arranging Node :=
  match fuel with
  | 0 => Arranging.misplaced 0 "did not find expected node content"
  | fuel + 1 => do
    let first ← Arranging.peek
    match first.kind with
    | .reference name => do
      Arranging.skip
      match (← get).names.lookup name with
      | some target => pure (.reference name target (← Arranging.number) first.line)
      | none => throw ⟨0, s!"unknown anchor '{name}' referenced"⟩
    | _ => do
      let marks ← arrangeMarks first.line
      match marks.anchor with
      | none => arrangeContent fuel block bare first.line marks
      | some name => do
        let n ← Arranging.name name
        let node ← arrangeContent fuel block bare first.line marks
        modify fun s => { s with named := (n, node) :: s.named }
        pure node

/-- Arranges what stands behind the name and the tag of a node. -/
def arrangeContent (fuel : Nat) (block bare : Bool) (start : Nat) (marks : NodeMarks) :
    Arranging Node :=
  match fuel with
  | 0 => Arranging.misplaced start "did not find expected node content"
  | fuel + 1 => do
    let token ← Arranging.peek
    match token.kind with
    | .blockEntry =>
      if bare then arrangeBareSequence fuel start marks.tag []
      else arrangeNothing start marks
    | .scalar value plain => do
      Arranging.skip
      pure (.scalar value plain marks.tag start)
    | .flowSequence => do
      Arranging.skip
      arrangeFlowSequence fuel token.line start marks.tag true []
    | .flowMapping => do
      Arranging.skip
      arrangeFlowMapping fuel token.line start marks.tag true []
    | .blockSequence =>
      if block then do
        Arranging.skip
        arrangeBlockSequence fuel token.line start marks.tag []
      else arrangeNothing start marks
    | .blockMapping =>
      if block then do
        Arranging.skip
        arrangeBlockMapping fuel token.line start marks.tag []
      else arrangeNothing start marks
    | _ => arrangeNothing start marks

/-- The empty scalar, which needs a name or a tag in front of it. -/
def arrangeNothing (start : Nat) (marks : NodeMarks) : Arranging Node := do
  if marks.hasAny then pure (.scalar "" true marks.tag start)
  else Arranging.misplaced start "did not find expected node content"

/-- Arranges the items of a block sequence. Items are kept latest first. -/
def arrangeBlockSequence (fuel opening start : Nat) (tag : Option String) (items : List Node) :
    Arranging Node :=
  match fuel with
  | 0 => Arranging.misplaced opening "did not find expected '-' indicator"
  | fuel + 1 => do
    let token ← Arranging.peek
    match token.kind with
    | .blockEntry => do
      Arranging.skip
      let next ← Arranging.peek
      let item ←
        if next.kind = .blockEntry || next.kind = .blockEnd then pure (Node.missing token.line)
        else arrangeNode fuel true false
      arrangeBlockSequence fuel opening start tag (item :: items)
    | .blockEnd => do
      Arranging.skip
      pure (.sequence items.reverse tag start)
    | _ => Arranging.misplaced opening "did not find expected '-' indicator"

/-- Arranges the items of a sequence at the column of the mapping around it. -/
def arrangeBareSequence (fuel start : Nat) (tag : Option String) (items : List Node) :
    Arranging Node :=
  match fuel with
  | 0 => Arranging.misplaced start "did not find expected '-' indicator"
  | fuel + 1 => do
    let token ← Arranging.peek
    match token.kind with
    | .blockEntry => do
      Arranging.skip
      let next ← Arranging.peek
      let item ←
        if endsEntry next.kind then pure (Node.missing token.line) else arrangeNode fuel true false
      arrangeBareSequence fuel start tag (item :: items)
    | _ => pure (.sequence items.reverse tag start)

/-- Arranges the entries of a block mapping. Entries are kept latest first. -/
def arrangeBlockMapping (fuel opening start : Nat) (tag : Option String)
    (entries : List (Node × Node)) : Arranging Node :=
  match fuel with
  | 0 => Arranging.misplaced opening "did not find expected key"
  | fuel + 1 => do
    let token ← Arranging.peek
    match token.kind with
    | .blockEnd => do
      Arranging.skip
      pure (.mapping entries.reverse tag start)
    | .key => do
      Arranging.skip
      let key ← arrangeEntryPart fuel token.line
      let value ← arrangeBlockValue fuel
      arrangeBlockMapping fuel opening start tag ((key, value) :: entries)
    | .value => do
      let value ← arrangeBlockValue fuel
      arrangeBlockMapping fuel opening start tag ((.missing token.line, value) :: entries)
    | _ => Arranging.misplaced opening "did not find expected key"

/-- Arranges a key or a value of a block mapping, which may be missing. -/
def arrangeEntryPart (fuel line : Nat) : Arranging Node :=
  match fuel with
  | 0 => Arranging.misplaced line "did not find expected key"
  | fuel + 1 => do
    let next ← Arranging.peek
    if next.kind = .key || next.kind = .value || next.kind = .blockEnd then pure (.missing line)
    else arrangeNode fuel true true

/-- Arranges the mark of a value in a block mapping and the value. -/
def arrangeBlockValue (fuel : Nat) : Arranging Node :=
  match fuel with
  | 0 => Arranging.misplaced 0 "did not find expected key"
  | fuel + 1 => do
    let token ← Arranging.peek
    if token.kind = .value then do
      Arranging.skip
      arrangeEntryPart fuel token.line
    else pure (.missing token.line)

/-- Arranges the items of a flow sequence. Items are kept latest first. -/
def arrangeFlowSequence (fuel opening start : Nat) (tag : Option String) (atFirst : Bool)
    (items : List Node) : Arranging Node :=
  match fuel with
  | 0 => Arranging.misplaced opening "did not find expected ',' or ']'"
  | fuel + 1 => do
    let token ← Arranging.peek
    if token.kind = .flowSequenceEnd then do
      Arranging.skip
      pure (.sequence items.reverse tag start)
    else do
      if !atFirst then
        if token.kind = .flowEntry then Arranging.skip
        else Arranging.misplaced opening "did not find expected ',' or ']'"
      let token ← Arranging.peek
      match token.kind with
      | .flowSequenceEnd => do
        Arranging.skip
        pure (.sequence items.reverse tag start)
      | .key => do
        Arranging.skip
        let item ← arrangePair fuel token.line
        arrangeFlowSequence fuel opening start tag false (item :: items)
      | _ => do
        let item ← arrangeNode fuel false false
        arrangeFlowSequence fuel opening start tag false (item :: items)

/-- Arranges a mapping of a single entry inside a flow sequence, behind the mark of its key. A mark
behind a missing key is not looked at again. -/
def arrangePair (fuel line : Nat) : Arranging Node :=
  match fuel with
  | 0 => Arranging.misplaced line "did not find expected ',' or ']'"
  | fuel + 1 => do
    let next ← Arranging.peek
    let key ←
      if [TokenKind.value, .flowEntry, .flowSequenceEnd].contains next.kind then do
        Arranging.skip
        pure (Node.missing next.line)
      else arrangeNode fuel false false
    let token ← Arranging.peek
    let value ← if token.kind = .value then do
        Arranging.skip
        let next ← Arranging.peek
        if next.kind = .flowEntry || next.kind = .flowSequenceEnd then
          pure (Node.missing token.line)
        else arrangeNode fuel false false
      else pure (Node.missing token.line)
    pure (.mapping [(key, value)] none line)

/-- Arranges the entries of a flow mapping. Entries are kept latest first. -/
def arrangeFlowMapping (fuel opening start : Nat) (tag : Option String) (atFirst : Bool)
    (entries : List (Node × Node)) : Arranging Node :=
  match fuel with
  | 0 => Arranging.misplaced opening "did not find expected ',' or '\x7d'"
  | fuel + 1 => do
    let token ← Arranging.peek
    if token.kind = .flowMappingEnd then do
      Arranging.skip
      pure (.mapping entries.reverse tag start)
    else do
      if !atFirst then
        if token.kind = .flowEntry then Arranging.skip
        else Arranging.misplaced opening "did not find expected ',' or '\x7d'"
      let token ← Arranging.peek
      match token.kind with
      | .flowMappingEnd => do
        Arranging.skip
        pure (.mapping entries.reverse tag start)
      | .key => do
        Arranging.skip
        let next ← Arranging.peek
        let key ←
          if [TokenKind.value, .flowEntry, .flowMappingEnd].contains next.kind then
            pure (Node.missing next.line)
          else arrangeNode fuel false false
        let value ← arrangeFlowValue fuel
        arrangeFlowMapping fuel opening start tag false ((key, value) :: entries)
      | _ => do
        let key ← arrangeNode fuel false false
        let value := Node.missing (← Arranging.peek).line
        arrangeFlowMapping fuel opening start tag false ((key, value) :: entries)

/-- Arranges the mark of a value in a flow mapping and the value, which may be missing. -/
def arrangeFlowValue (fuel : Nat) : Arranging Node :=
  match fuel with
  | 0 => Arranging.misplaced 0 "did not find expected ',' or '\x7d'"
  | fuel + 1 => do
    let token ← Arranging.peek
    if token.kind = .value then do
      Arranging.skip
      let next ← Arranging.peek
      if next.kind = .flowEntry || next.kind = .flowMappingEnd then pure (.missing next.line)
      else arrangeNode fuel false false
    else pure (.missing token.line)
end

/-- Arranges the directives in front of a document. A version other than 1.1 and a directive that
occurs twice are refused. -/
def arrangeDirectives (fuel : Nat) (versioned : Bool) : Arranging Unit :=
  match fuel with
  | 0 => pure ()
  | fuel + 1 => do
    let token ← Arranging.peek
    match token.kind with
    | .version major minor =>
      if versioned then Arranging.misplaced token.line "found duplicate %YAML directive"
      else if major ≠ 1 || minor ≠ 1 then
        Arranging.misplaced token.line "found incompatible YAML document"
      else do
        Arranging.skip
        arrangeDirectives fuel true
    | .handle name meaning => do
      if ((← get).handles.lookup name).isSome then
        Arranging.misplaced token.line "found duplicate %TAG directive"
      else do
        modify fun s => { s with handles := (name, meaning) :: s.handles }
        Arranging.skip
        arrangeDirectives fuel versioned
    | _ => pure ()

/-- Whether a token stands at the edge of a document. -/
def isEdge : TokenKind → Bool
  | .version _ _ => true
  | .handle _ _ => true
  | .documentStart => true
  | .documentEnd => true
  | .textEnd => true
  | _ => false

/-- Arranges the first document. A text without a document has no node. -/
def arrangeDocument (fuel : Nat) : Arranging (Option Node) := do
  let first ← Arranging.peek
  if first.kind = .textEnd then pure none
  else do
    let node ←
      if isEdge first.kind && first.kind ≠ .documentEnd then do
        arrangeDirectives fuel false
        let token ← Arranging.peek
        if token.kind ≠ .documentStart then
          Arranging.misplaced 0 "did not find expected <document start>"
        else do
          Arranging.skip
          let next ← Arranging.peek
          if isEdge next.kind then pure (Node.missing next.line)
          else arrangeNode fuel true false
      else arrangeNode fuel true false
    let _ ← Arranging.peek
    pure (some node)

namespace Document

/-- The first document of some tokens. -/
def ofTokens (t : Tokens) : Except Problem (Option Document) := do
  let fuel := 3 * t.tokens.length + 3
  let (node, s) ← (arrangeDocument fuel).run { tokens := t.tokens, problem := t.problem }
  pure (node.map fun node => ⟨node, s.named, t.tokens.length + 1⟩)

/-- The first document of a text. -/
def read (text : List Char) : Except Problem (Option Document) := ofTokens (Token.scan text)

end Document

end Yaml

end CodeSmell
