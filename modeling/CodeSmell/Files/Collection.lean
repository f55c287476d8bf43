import CodeSmell.Files.Disk
import CodeSmell.Settings.Exclusion

/-!
# Collecting tree files

The files to analyze below a path are those with the extension of tree files whose path is not
excluded. Directories of other people's code are not searched, unless the search starts there.
-/

set_option autoImplicit false

namespace CodeSmell

/-- The extension of files that hold trees. -/
def treeExtension : String := ".sexp"

/-- Whether a path has the extension of tree files. -/
def isTreeFile (path : String) : Bool := treeExtension.toList.isSuffixOf path.toList

/-- The names of directories that are not searched. -/
def foreignDirectories : List String := ["vendor", ".git", "node_modules"]

/-- Whether a directory is searched when the search starts at `start`. -/
def isSearched (start path : String) : Bool :=
  path = start || !foreignDirectories.contains (Path.base path)

/-- The tree files among the paths of a walk that are not excluded. -/
def treeFiles (exclude : List Text) (visited : List (String × Entry)) : List String :=
  (visited.filter fun (path, e) =>
    !e.isDirectory && isTreeFile path && !isExcluded exclude path).map Prod.fst

/-- The tree files at or below a path. -/
def Disk.collect (d : Disk) (exclude : List Text) (path : String) :
    Except FileError (List String) :=
  (d.findFor "lstat" path).map fun e => treeFiles exclude (e.walk (isSearched path) path)

end CodeSmell
