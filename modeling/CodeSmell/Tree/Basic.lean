import CodeSmell.Text.Basic
import CodeSmell.Tree.Tag

/-!
# Syntax trees

A syntax tree is a node with a tag, a line and children, or an atom: a name, a literal, or the mark
of an empty slot. Parts of a node are found by their position; a position beyond the last child is
an empty slot too.
-/

set_option autoImplicit false

namespace CodeSmell

/-- A terminal value. Numbers keep the text they were written as, and a regular expression the text
between its slashes. -/
inductive Atom where
  | sym (name : String)
  | int (digits : String)
  | float (digits : String)
  | str (value : Text)
  | re (source : String)
  | nil
deriving DecidableEq

namespace Atom

/-- The text of an atom; an empty slot has none. -/
def text : Atom → Text
  | .sym name => Text.ofString name
  | .int digits => Text.ofString digits
  | .float digits => Text.ofString digits
  | .str value => value
  | .re source => Text.ofString source
  | .nil => []

end Atom

/-- A syntax tree. A line of zero is unknown. -/
inductive Tree where
  | node (tag : Tag) (line : Int) (children : List Tree)
  | atom (a : Atom)

namespace Tree

instance : Inhabited Tree := ⟨.atom .nil⟩

/-- A node with a known tag. -/
abbrev known (k : Keyword) (line : Int) (children : List Tree) : Tree :=
  .node (.known k) line children

/-- The children of a tree; an atom has none. -/
def children : Tree → List Tree
  | .node _ _ cs => cs
  | .atom _ => []

/-- The line of a tree; an atom has none. -/
def line : Tree → Int
  | .node _ l _ => l
  | .atom _ => 0

/-- Whether a tree is a node. -/
def isNode : Tree → Bool
  | .node _ _ _ => true
  | .atom _ => false

/-- Whether a tree is a node with a given known tag. -/
def hasTag (k : Keyword) : Tree → Bool
  | .node tag _ _ => tag = .known k
  | .atom _ => false

/-- The text of a tree that is an atom; nodes and empty slots have none. -/
def name : Tree → Text
  | .node _ _ _ => []
  | .atom a => a.text

/-- Whether a tree marks an empty slot. -/
def isNilAtom : Tree → Bool
  | .atom .nil => true
  | _ => false

/-! ## Slots

The parts of a node stand in slots, counted from zero.
-/

/-- The text of the atom in a slot; nodes and empty slots have none. -/
def nameAt (slots : List Tree) (i : Nat) : Text :=
  match slots[i]? with
  | some t => t.name
  | none => []

/-- The node in a slot. -/
def nodeAt? (slots : List Tree) (i : Nat) : Option Tree := slots[i]?.filter Tree.isNode

/-- Whether a slot is empty: it is marked so, or it is missing. -/
def isEmptyAt (slots : List Tree) (i : Nat) : Bool :=
  match slots[i]? with
  | some t => t.isNilAtom
  | none => true

/-- The arguments in an argument slot: the children of an argument list or array, a single other
node, or nothing. -/
def arguments : Tree → List Tree
  | .node (.known .arglist) _ cs => cs
  | .node (.known .array) _ cs => cs
  | .node tag line cs => [.node tag line cs]
  | .atom _ => []

/-- The number of statements of a body, without a parameter list in front and a `nil` at the end. -/
def countStatements (body : List Tree) : Nat :=
  let count := body.length - if (body.head?.any (Tree.hasTag .args)) then 1 else 0
  if 0 < count ∧ (body.getLast?.any (Tree.hasTag .nil)) then count - 1 else count

end Tree

end CodeSmell
