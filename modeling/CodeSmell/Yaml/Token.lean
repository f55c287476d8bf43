import CodeSmell.Yaml.Node

/-!
# YAML tokens

A token is a mark or a word of a text together with its line. Where a collection of block style
starts and ends has no mark in the text: indentation decides, and tokens say it.
-/

set_option autoImplicit false

namespace CodeSmell

namespace Yaml

/-- What a token is. -/
inductive TokenKind where
  /-- A directive for the version of the format. -/
  | version (major minor : Nat)
  /-- A directive for the meaning of a handle in tags. -/
  | handle (name meaning : String)
  | documentStart
  | documentEnd
  | blockSequence
  | blockMapping
  | blockEnd
  | flowSequence
  | flowSequenceEnd
  | flowMapping
  | flowMappingEnd
  | blockEntry
  | flowEntry
  | key
  | value
  | reference (name : String)
  | anchor (name : String)
  | tag (handle suffix : String)
  | scalar (value : String) (plain : Bool)
  | textEnd
deriving DecidableEq

/-- A token and its line, counted from one. -/
structure Token where
  kind : TokenKind
  line : Nat
deriving DecidableEq

/-- The tokens of a text as far as they can be used, and the problem that ends them if there is one.
Tokens without a problem end with the end of the text. -/
structure Tokens where
  tokens : List Token
  problem : Option Problem := none

end Yaml

end CodeSmell
