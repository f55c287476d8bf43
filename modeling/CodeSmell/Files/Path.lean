/-!
# Paths

A path is a text of components separated by slashes. Nothing here looks at files: the functions work
on the text alone.
-/

set_option autoImplicit false

namespace CodeSmell

namespace Path

/-- The stretches of characters between separators; without a separator there is one stretch. -/
def split (separator : Char) : List Char → List (List Char)
  | [] => [[]]
  | c :: rest =>
    if c = separator then [] :: split separator rest
    else match split separator rest with
      | part :: parts => (c :: part) :: parts
      | [] => [[c]]

/-- The components of a path, empty ones included. -/
def components (path : String) : List String := (split '/' path.toList).map String.ofList

/-- The last component, slashes at the end left out. The empty path is `.`, and a path of slashes is
the root. -/
def base (path : String) : String :=
  if path = "" then "."
  else
    let trimmed := path.toList.reverse.dropWhile (· == '/')
    if trimmed.isEmpty then "/" else String.ofList (trimmed.takeWhile (· != '/')).reverse

/-- Resolves a component against those already resolved, which stand latest first. -/
def resolve (rooted : Bool) (done : List String) (part : String) : List String :=
  if part = "" ∨ part = "." then done
  else if part = ".." then
    match done with
    | [] => if rooted then [] else [".."]
    | last :: earlier => if last = ".." then ".." :: done else earlier
  else part :: done

/-- The shortest path of the same meaning. -/
def clean (path : String) : String :=
  let rooted := path.toList.head? == some '/'
  let body := "/".intercalate ((components path).foldl (resolve rooted) []).reverse
  if rooted then "/" ++ body else if body = "" then "." else body

/-- All but the last component. -/
def parent (path : String) : String :=
  clean (String.ofList (path.toList.reverse.dropWhile (· != '/')).reverse)

/-- A name inside a directory. -/
def join (dir name : String) : String :=
  if dir = "" then (if name = "" then "" else clean name)
  else if name = "" then clean dir else clean (dir ++ "/" ++ name)

end Path

end CodeSmell
