import CodeSmell.Pattern.Regex

/-!
# Reduced regular expressions

Expressions are put together in reduced form. Characters in a row make one literal, alternatives of
one character each make one set, and a beginning that neighbouring alternatives share is taken out
in front of them: `abc|abd|x` becomes `ab[cd]|x`. The bounds on size and height apply to what is
left.

`Regex.concat` puts expressions in a row, and `Regex.alternate` makes them alternatives.
-/

set_option autoImplicit false

namespace CodeSmell

namespace Regex

/-! ## Single characters -/

/-- Whether an expression matches exactly the strings of one character of some set. -/
def isSingle : Regex → Bool
  | .literal [_] _ => true
  | .chars _ => true
  | .anyChar _ => true
  | _ => false

/-- The characters that an expression for a single character matches. -/
def singles : Regex → CharRanges
  | .literal [c] fold => if fold then (foldOrbit c).map fun n => (n, n) else [(c, c)]
  | .chars ranges => ranges
  | .anyChar true => [(0, lastCodePoint)]
  | .anyChar false => [(0, 9), (11, lastCodePoint)]
  | _ => []

/-- A set of characters as an alternative: the set of all characters, with or without the line
break, has an expression of its own. -/
def ofAlternatives (ranges : CharRanges) : Regex :=
  if ranges = [(0, lastCodePoint)] then .anyChar true
  else if ranges = [(0, 9), (11, lastCodePoint)] then .anyChar false
  else .chars ranges

/-- One of two single characters. -/
def mergeSingles (a b : Regex) : Regex :=
  match a, b with
  | .literal [c] f, .literal [d] g =>
    if c = d ∧ f = g then a else .chars (CharRanges.normalize (a.singles ++ b.singles))
  | _, _ => ofAlternatives (CharRanges.normalize (a.singles ++ b.singles))

/-- A set that has one character, or one letter in both its cases, is a literal. -/
def settle : Regex → Regex
  | .chars [(a, b)] =>
    if a = b then .literal [a] false
    else if b = a + 1 ∧ foldOrbit a = [a, b] then .literal [a] true
    else .chars [(a, b)]
  | .chars [(a, b), (c, d)] =>
    if a = b ∧ c = d ∧ foldOrbit a = [a, c] then .literal [a] true
    else .chars [(a, b), (c, d)]
  | r => r

/-! ## Expressions in a row -/

/-- Joins literals that stand next to each other. -/
def joinLiterals : List Regex → List Regex
  | [] => []
  | r :: rest =>
    match r, joinLiterals rest with
    | .literal cs f, .literal ds g :: others =>
      if f = g then .literal (cs ++ ds) f :: others else r :: .literal ds g :: others
    | r, others => r :: others

/-- The parts of an expression that is a row. -/
def parts : Regex → List Regex
  | .seq parts => parts
  | r => [r]

/-- A row of expressions that are already reduced; a row of one is that one. -/
def ofParts : List Regex → Regex
  | [] => .empty
  | [r] => r
  | rs => .seq rs

/-- Expressions in a row. -/
def concat (rs : List Regex) : Regex :=
  match joinLiterals rs with
  | [] => .empty
  | [r] => r
  | rs => .seq (rs.flatMap parts)

/-! ## Shared beginnings -/

/-- The characters with which an expression starts, and whether their case is folded. -/
def leadingChars : Regex → List Nat × Bool
  | .literal cs f => (cs, f)
  | .seq (.literal cs f :: _) => (cs, f)
  | _ => ([], false)

/-- An expression without a number of characters at its start. -/
def dropChars (n : Nat) : Regex → Regex
  | .literal cs f => if (cs.drop n).isEmpty then .empty else .literal (cs.drop n) f
  | .seq (.literal cs f :: rest) =>
    if (cs.drop n).isEmpty then ofParts rest else .seq (.literal (cs.drop n) f :: rest)
  | r => r

/-- The characters that two lists have in common at their start. -/
def commonStart : List Nat → List Nat → List Nat
  | a :: as, b :: bs => if a = b then a :: commonStart as bs else []
  | _, _ => []

/-- Alternatives that follow each other and start with the same characters. -/
structure CharRun where
  start : List Nat
  foldCase : Bool
  members : List Regex

/-- Splits alternatives into runs; the first run starts with the members of `run`, which are kept
latest first. -/
def charRuns (run : CharRun) : List Regex → List CharRun
  | [] => [{ run with members := run.members.reverse }]
  | r :: rest =>
    let (cs, f) := leadingChars r
    let shared := commonStart run.start cs
    if f = run.foldCase ∧ shared ≠ [] then charRuns ⟨shared, f, r :: run.members⟩ rest
    else { run with members := run.members.reverse } :: charRuns ⟨cs, f, [r]⟩ rest

/-- The first part of an expression. -/
def leadingPart? : Regex → Option Regex
  | .empty => none
  | .seq (.empty :: _) => none
  | .seq (r :: _) => some r
  | r => some r

/-- An expression without its first part. -/
def dropPart : Regex → Regex
  | .seq (_ :: rest) => ofParts rest
  | _ => .empty

/-- Whether two expressions for a single character are the same; for literals only the character is
compared. -/
def sameSingle : Regex → Regex → Bool
  | .literal [c] _, .literal [d] _ => c == d
  | .chars a, .chars b => a == b
  | .anyChar a, .anyChar b => a == b
  | _, _ => false

/-- Whether a first part can be shared, and is the same as another one: a single character, or a
fixed number of them. -/
def sharesPart : Regex → Regex → Bool
  | .repeated a m (some n) s, .repeated b m' (some n') s' =>
    m == n && m == m' && n == n' && s == s' && sameSingle a b
  | a, b => sameSingle a b

/-- Splits alternatives into runs that share their first part. -/
def partRuns (first : Option Regex) (run : List Regex) : List Regex → List (List Regex)
  | [] => [run.reverse]
  | r :: rest =>
    match first, leadingPart? r with
    | some a, some b =>
      if sharesPart a b then partRuns first (r :: run) rest
      else run.reverse :: partRuns (some b) [r] rest
    | _, next => run.reverse :: partRuns next [r] rest

/-- Makes one set of single characters that follow each other as alternatives. -/
def joinSingles : List Regex → List Regex
  | [] => []
  | r :: rest =>
    match joinSingles rest with
    | [] => [r]
    | next :: others =>
      if r.isSingle && next.isSingle then mergeSingles r next :: others else r :: next :: others

/-- Keeps one of several empty expressions that follow each other. -/
def joinEmpty : List Regex → List Regex
  | .empty :: .empty :: rest => joinEmpty (.empty :: rest)
  | r :: rest => r :: joinEmpty rest
  | [] => []

/-! ## Alternatives -/

/-- The choices of an expression that has alternatives. -/
def choices : Regex → List Regex
  | .alt choices => choices
  | r => [r]

/-- Alternatives that are already reduced; a single one stands for itself. -/
def ofChoices : List Regex → Regex
  | [r] => r
  | rs => .alt rs

/-- Alternatives with their shared beginnings taken out, as far as the fuel allows. Each round takes
away a part of each expression concerned, so that the size of all of them is fuel enough. -/
def alternateWithin : Nat → List Regex → Regex
  | _, [r] => r
  | 0, rs => ofChoices rs
  | fuel + 1, rs =>
    match rs.flatMap choices with
    | [] => .alt []
    | r :: rest =>
      let (cs, f) := leadingChars r
      let byChars := (charRuns ⟨cs, f, [r]⟩ rest).map fun run =>
        match run.members with
        | [single] => single
        | members =>
          .seq [.literal run.start run.foldCase,
            alternateWithin fuel (members.map (dropChars run.start.length))]
      match byChars with
      | [] => .alt []
      | r :: rest =>
        let byParts := (partRuns (leadingPart? r) [r] rest).map fun run =>
          match run with
          | [single] => single
          | members =>
            .seq [(members.head?.bind leadingPart?).getD .empty,
              alternateWithin fuel (members.map dropPart)]
        ofChoices (joinEmpty (joinSingles byParts))

/-- One of some expressions. -/
def alternate (rs : List Regex) : Regex := alternateWithin (sizeAll rs + 1) rs

end Regex

end CodeSmell
