import CodeSmell.Groups
import CodeSmell.Text.Basic

/-!
# What is known about a scope

While a tree is walked, the calls, references and variables met in it are noted for the scopes
around them. `Facts` holds what was noted for one scope. Nothing noted is ever changed or dropped:
each list grows at its end only.
-/

set_option autoImplicit false

namespace CodeSmell

/-- A call that was met: its signature, the method called, and its line. -/
structure Call where
  signature : Text
  method : Text
  line : Int
deriving DecidableEq

/-- How an instance variable is used. A lazy write depends on what the variable holds. -/
inductive Access where
  | read
  | write
  | lazyWrite
deriving DecidableEq

/-- The uses of names, each a list of lines, in order of first use. -/
abbrev References := Groups Text Int

namespace References

/-- The largest number of uses of one name. -/
def highest (refs : References) : Nat := (refs.map fun r => r.2.length).foldl max 0

/-- The names with the largest number of uses, in order of first use. -/
def mostPopular (refs : References) : List Text :=
  (refs.filter fun r => r.2.length = refs.highest).map Prod.fst

end References

/-- The instance variables met, each with its uses and their lines. -/
abbrev InstanceVariables := Groups Text (Access × Int)

/-- What was noted for a scope. -/
structure Facts where
  calls : List Call := []
  parameters : List Text := []
  locals : List Text := []
  instanceVariables : InstanceVariables := []
  references : References := []
  selfUsage : Nat := 0
  dependsOnSelf : Nat := 0
  statements : Int := 0

/-- The number of uses bound to the object itself. -/
def Facts.selfAffinity (f : Facts) : Nat := f.selfUsage + f.dependsOnSelf

/-- Something met in a tree. -/
inductive Observation where
  | call (c : Call)
  | reference (name : Text) (line : Int)
  | useOfSelf
  | dependsOnSelf
  | parameter (name : Text)
  | local (name : Text)
  | statements (count : Int)
  | instanceVariable (name : Text) (access : Access) (line : Int)
deriving DecidableEq

end CodeSmell
