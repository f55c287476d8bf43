import CodeSmell.Scope.Basic

/-!
# Scopes that stay open

A forest keeps all scopes ever opened, each nested in an earlier one or in none. Scopes are
numbered in the order of their opening, and stand in the list latest first, so that the scopes
around one are found further down the list.
-/

set_option autoImplicit false

namespace CodeSmell

/-- A scope of a forest and the number of the scope around it. -/
structure Planted where
  scope : Scope
  outer : Option Nat

/-- Scopes latest first; the number of a scope is the number of scopes behind it. -/
abbrev Forest := List Planted

namespace Forest

/-- A forest of a single outermost scope. -/
def start : Forest := [⟨Scope.root, none⟩]

/-- A scope followed by the scopes around it. -/
def chain : Forest → Nat → Chain
  | [], _ => []
  | p :: older, number =>
    if number = older.length then
      p.scope :: match p.outer with
        | some o => chain older o
        | none => []
    else chain older number

/-- Replaces a scope and those around it. -/
def replace : Forest → Nat → Chain → Forest
  | [], _, _ => []
  | forest, _, [] => forest
  | p :: older, number, s :: outer =>
    if number = older.length then
      { p with scope := s } :: match p.outer with
        | some o => replace older o outer
        | none => older
    else p :: replace older number (s :: outer)

/-- Opens a scope inside another. -/
def plant (forest : Forest) (on : Nat) (o : Opening) : Forest :=
  ⟨o.scopeIn (forest.chain on), some on⟩ :: forest

/-- Records an observation made in a scope. -/
def record (forest : Forest) (on : Nat) (o : Observation) : Forest :=
  forest.replace on ((forest.chain on).record o)

end Forest

end CodeSmell
