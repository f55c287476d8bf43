import CodeSmell.Files.Path
import CodeSmell.Pattern.Glob

/-!
# Excluded paths

A pattern that ends in `/**` excludes the paths that have the name before it as a component. Any
other pattern is matched against the last component and against the whole path.
-/

set_option autoImplicit false

namespace CodeSmell

/-- The directory name of a pattern that ends in `/**`. -/
def directoryOf? (pattern : Text) : Option Text :=
  match pattern.reverse with
  | 0x2A :: 0x2A :: 0x2F :: name => some name.reverse
  | _ => none

/-- Whether a pattern excludes a path. -/
def excludes (path : String) (pattern : Text) : Bool :=
  match directoryOf? pattern with
  | some dir => (Path.components path).any (Text.ofString · = dir)
  | none => Glob.matchesText pattern (Path.base path) || Glob.matchesText pattern path

/-- Whether one of some patterns excludes a path. -/
def isExcluded (patterns : List Text) (path : String) : Bool := patterns.any (excludes path)

end CodeSmell
