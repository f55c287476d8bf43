import CodeSmell.Text.Basic

/-!
# Node tags

The tag of a node says what the node means. Some tags are known: they open scopes, make calls, name
variables, and so on. Every other text is a tag as well, with no meaning of its own, be its bytes
the form of characters or not. A tag that is not known carries the proof of it, so each text is the
name of exactly one tag (`Tag.ofName_name`, `Tag.name_ofName`).
-/

set_option autoImplicit false

namespace CodeSmell

/-- The tags that have a meaning. -/
inductive Keyword where
  | moduleDef | classDef | defn | defs | iter | if | yield
  | call | fcall | vcall | attrasgn
  | opAsgn1 | opAsgn | opAsgnOr | opAsgnAnd
  | match2 | match3 | masgn
  | ivar | iasgn | lvar | lasgn | dvar | dasgnCurr | gvar
  | self | nil | true | false | lit | str | const | colon2
  | array | arglist | args | block | scope
  | super | zsuper | return | not | and | or
deriving DecidableEq, Repr

namespace Keyword

/-- The word that a known tag is written as. -/
def name : Keyword → Text
  | .moduleDef => "module"
  | .classDef => "class"
  | .defn => "defn"
  | .defs => "defs"
  | .iter => "iter"
  | .if => "if"
  | .yield => "yield"
  | .call => "call"
  | .fcall => "fcall"
  | .vcall => "vcall"
  | .attrasgn => "attrasgn"
  | .opAsgn1 => "op_asgn1"
  | .opAsgn => "op_asgn"
  | .opAsgnOr => "op_asgn_or"
  | .opAsgnAnd => "op_asgn_and"
  | .match2 => "match2"
  | .match3 => "match3"
  | .masgn => "masgn"
  | .ivar => "ivar"
  | .iasgn => "iasgn"
  | .lvar => "lvar"
  | .lasgn => "lasgn"
  | .dvar => "dvar"
  | .dasgnCurr => "dasgn_curr"
  | .gvar => "gvar"
  | .self => "self"
  | .nil => "nil"
  | .true => "true"
  | .false => "false"
  | .lit => "lit"
  | .str => "str"
  | .const => "const"
  | .colon2 => "colon2"
  | .array => "array"
  | .arglist => "arglist"
  | .args => "args"
  | .block => "block"
  | .scope => "scope"
  | .super => "super"
  | .zsuper => "zsuper"
  | .return => "return"
  | .not => "not"
  | .and => "and"
  | .or => "or"

/-- Every known tag. -/
def all : List Keyword :=
  [.moduleDef, .classDef, .defn, .defs, .iter, .if, .yield, .call, .fcall, .vcall, .attrasgn,
    .opAsgn1, .opAsgn, .opAsgnOr, .opAsgnAnd, .match2, .match3, .masgn, .ivar, .iasgn, .lvar,
    .lasgn, .dvar, .dasgnCurr, .gvar, .self, .nil, .true, .false, .lit, .str, .const, .colon2,
    .array, .arglist, .args, .block, .scope, .super, .zsuper, .return, .not, .and, .or]

/-- The known tag that a word names. -/
def ofName? (word : Text) : Option Keyword := all.find? fun k => k.name == word

/-- A known tag is found under its own name. -/
theorem ofName?_name (k : Keyword) : ofName? k.name = some k := by
  cases k <;> decide

/-- What is found under a word has that word as its name. -/
theorem name_of_ofName? {word : Text} {k : Keyword} (h : ofName? word = some k) :
    k.name = word := by
  have := List.find?_some h
  simpa using this

end Keyword

/-- The tag of a node: a known one, or any other text. -/
inductive Tag where
  | known (keyword : Keyword)
  | other (word : Text) (unknown : Keyword.ofName? word = none)
deriving DecidableEq

namespace Tag

/-- The text that a tag is written as. -/
def name : Tag → Text
  | .known k => k.name
  | .other word _ => word

/-- The tag that a text names. -/
def ofName (word : Text) : Tag :=
  match h : Keyword.ofName? word with
  | some k => .known k
  | none => .other word h

/-- A tag is found under its own name. -/
@[simp] theorem ofName_name (tag : Tag) : ofName tag.name = tag := by
  cases tag with
  | known k =>
    unfold ofName
    split
    · rename_i k' h
      simp only [name, Keyword.ofName?_name, Option.some.injEq] at h
      rw [h]
    · rename_i h
      simp [name, Keyword.ofName?_name] at h
  | other word unknown =>
    unfold ofName
    split
    · rename_i h
      simp [name, unknown] at h
    · rfl

/-- The tag found under a text has that text as its name. -/
@[simp] theorem name_ofName (word : Text) : (ofName word).name = word := by
  unfold ofName
  split
  · rename_i k h
    exact Keyword.name_of_ofName? h
  · rfl

end Tag

end CodeSmell
