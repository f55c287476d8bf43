/-!
# YAML nodes

A node is a scalar, a sequence or a mapping, together with the line on which it starts, or a
reference to another node that was given a name. Entries of a mapping keep their order, and a key
may occur more than once: what a repeated key means is left to whoever uses the mapping. A missing
value is the empty plain scalar.
-/

set_option autoImplicit false

namespace CodeSmell

namespace Yaml

/-- A node of a document. Lines are counted from one. A scalar that was written in quotes, or as a
block, denotes its text; a plain one may denote something else, and a tag says what it has to be.
The tag of a collection is only shown. A reference holds the name and the number of the node that
it refers to, and its own number. -/
inductive Node where
  | scalar (value : String) (plain : Bool) (tag : Option String) (line : Nat)
  | sequence (items : List Node) (tag : Option String) (line : Nat)
  | mapping (entries : List (Node × Node)) (tag : Option String) (line : Nat)
  | reference (name : String) (target serial : Nat) (line : Nat)

namespace Node

/-- The line on which a node starts. -/
def line : Node → Nat
  | .scalar _ _ _ line => line
  | .sequence _ _ line => line
  | .mapping _ _ line => line
  | .reference _ _ _ line => line

/-- The node that stands for a missing value. -/
def missing (line : Nat) : Node := .scalar "" true none line

end Node

/-- A document: its node, the nodes with names by their numbers, and a bound on the depth of any
chain of mappings in it. -/
structure Document where
  root : Node
  named : List (Nat × Node) := []
  bound : Nat := 0

/-- Why a text is no document, and the line to which the problem is attributed; zero is written for
problems without a line. -/
structure Problem where
  line : Nat
  text : String
deriving DecidableEq, Repr

/-- The wording of a problem. -/
def Problem.message (p : Problem) : String :=
  if p.line = 0 then s!"yaml: {p.text}" else s!"yaml: line {p.line}: {p.text}"

end Yaml

end CodeSmell
