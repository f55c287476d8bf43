/-!
# Durations

A duration is a number of nanoseconds. As text it is given in the largest unit that leaves a number
of at least one, with the fraction exact and without zeros at its end; from a minute on, minutes
and hours stand in front.
-/

set_option autoImplicit false

namespace CodeSmell

namespace Duration

/-- A number of units of `10 ^ places`, exactly. -/
def scaled (places n : Nat) : String :=
  let digits := (Nat.repr (n % Nat.pow 10 places)).toList
  let padded := List.replicate (places - digits.length) '0' ++ digits
  let fraction := (padded.reverse.dropWhile (· = '0')).reverse
  let whole := Nat.repr (n / Nat.pow 10 places)
  if fraction.isEmpty || places = 0 then whole else whole ++ "." ++ String.ofList fraction

/-- The text of a duration. -/
def text (nanoseconds : Nat) : String :=
  if nanoseconds = 0 then "0s"
  else if nanoseconds < 1000 then scaled 0 nanoseconds ++ "ns"
  else if nanoseconds < 1000000 then scaled 3 nanoseconds ++ "µs"
  else if nanoseconds < 1000000000 then scaled 6 nanoseconds ++ "ms"
  else
    let minute := 60 * 1000000000
    let hour := 60 * minute
    (if hour ≤ nanoseconds then Nat.repr (nanoseconds / hour) ++ "h" else "") ++
      (if minute ≤ nanoseconds then Nat.repr (nanoseconds % hour / minute) ++ "m" else "") ++
      scaled 9 (nanoseconds % minute) ++ "s"

end Duration

end CodeSmell
