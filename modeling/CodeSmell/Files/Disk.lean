import CodeSmell.Fields
import CodeSmell.Files.Path
import CodeSmell.Text.Basic

/-!
# Files and directories

A disk is a tree of named entries together with a working directory. Names in a directory are
distinct and increase. Paths are resolved component by component: each component but the last has to
be a directory, a slash at the end asks for a directory as well, and the parent of the topmost
directory is that directory itself.

`Disk.find` looks a path up, `Entry.walk` lists what lies below it, and `Disk.makeDirectories` and
`Disk.write` give the disk after a change.
-/

set_option autoImplicit false

namespace CodeSmell

/-- A file with its content, or a directory. -/
inductive Entry where
  | file (content : Text)
  | directory (entries : List (String × Entry))

/-- What can be wrong with a path. -/
inductive FileFault where
  | missing
  | notADirectory
  | isADirectory
  | exists
deriving DecidableEq

/-- The wording of a fault. -/
def FileFault.message : FileFault → String
  | .missing => "no such file or directory"
  | .notADirectory => "not a directory"
  | .isADirectory => "is a directory"
  | .exists => "file exists"

/-- A fault with the action that failed and its path. -/
structure FileError where
  action : String
  path : String
  fault : FileFault

/-- The wording of an error. -/
def FileError.message (e : FileError) : String := s!"{e.action} {e.path}: {e.fault.message}"

namespace Entry

/-- Whether an entry is a directory. -/
def isDirectory : Entry → Bool
  | .file _ => false
  | .directory _ => true

/-- The entry at a location, which is a list of names from the outside in. -/
def get? : List String → Entry → Option Entry
  | [], e => some e
  | _ :: _, .file _ => none
  | name :: names, .directory entries =>
    match entries.lookup name with
    | some e => get? names e
    | none => none

/-- Puts an entry at a location. Directories on the way that are missing are made; a file on the way
makes way for a directory. -/
def put (new : Entry) : List String → Entry → Entry
  | [], _ => new
  | name :: names, .file _ => .directory [(name, put new names (.directory []))]
  | name :: names, .directory entries =>
    let old := (entries.lookup name).getD (.directory [])
    .directory (insertField name (put new names old) entries)

/-- The size that a directory is said to have. -/
def directorySize : Nat := 4096

/-- The size in bytes. -/
def size : Entry → Nat
  | .file content => content.length
  | .directory _ => directorySize

mutual
/-- An entry and all that lies below it, with paths, in the order of names. A directory that
`isOpen` refuses is left out together with all that lies below it. -/
def walk (isOpen : String → Bool) (path : String) : Entry → List (String × Entry)
  | .file content => [(path, .file content)]
  | .directory entries =>
    if isOpen path then (path, .directory entries) :: walkEntries isOpen path entries else []

/-- What lies below a directory with a given path. -/
def walkEntries (isOpen : String → Bool) (path : String) :
    List (String × Entry) → List (String × Entry)
  | [] => []
  | entry :: entries => walkEntry isOpen path entry ++ walkEntries isOpen path entries

/-- A named entry of a directory with a given path, and all that lies below it. -/
def walkEntry (isOpen : String → Bool) (path : String) : String × Entry → List (String × Entry)
  | (name, e) => walk isOpen (Path.join path name) e
end

/-- All files below an entry with their paths. -/
def files (e : Entry) : List (String × Text) :=
  (e.walk (fun _ => true) ".").filterMap fun (path, e) =>
    match e with
    | .file content => some (path, content)
    | .directory _ => none

end Entry

/-- A tree of files and the place in it from which relative paths start. -/
structure Disk where
  root : Entry := .directory []
  here : List String := []

namespace Disk

/-- Resolves components from a location. -/
def resolve (d : Disk) (location : List String) : List String → Except FileFault (List String)
  | [] => .ok location
  | name :: names =>
    match d.root.get? location with
    | some (.directory entries) =>
      if name = "" ∨ name = "." then d.resolve location names
      else if name = ".." then d.resolve location.dropLast names
      else if (entries.lookup name).isSome then d.resolve (location ++ [name]) names
      else .error .missing
    | _ => .error .notADirectory

/-- The location at which a path starts. -/
def origin (d : Disk) (path : String) : List String :=
  if path.toList.head? = some '/' then [] else d.here

/-- The location of a path. -/
def locate (d : Disk) (path : String) : Except FileFault (List String) :=
  if path = "" then .error .missing else d.resolve (d.origin path) (Path.components path)

/-- The entry at a path. -/
def find (d : Disk) (path : String) : Except FileFault Entry := do
  match d.root.get? (← d.locate path) with
  | some e => .ok e
  | none => .error .missing

/-- The entry at a path, for an action whose name stands in the error. -/
def findFor (d : Disk) (action path : String) : Except FileError Entry :=
  (d.find path).mapError fun fault => ⟨action, path, fault⟩

/-- The content of the file at a path. -/
def read (d : Disk) (path : String) : Except FileError Text := do
  match ← d.findFor "open" path with
  | .file content => .ok content
  | .directory _ => .error ⟨"read", path, .isADirectory⟩

/-- Splits a path into the part in front of its last name, that name, and whether slashes follow
it. -/
def splitLast (path : String) : String × String × Bool :=
  let reversed := path.toList.reverse
  let trimmed := reversed.dropWhile (· = '/')
  (String.ofList (trimmed.dropWhile (· ≠ '/')).reverse,
    String.ofList (trimmed.takeWhile (· ≠ '/')).reverse,
    trimmed.length < reversed.length)

/-- The location of the directory in which the last name of a path stands. -/
def locateParent (d : Disk) (path : String) : Except FileFault (List String) := do
  let (front, _, _) := splitLast path
  let location ← if front = "" then .ok (d.origin path) else d.locate front
  match d.root.get? location with
  | some (.directory _) => .ok location
  | some (.file _) => .error .notADirectory
  | none => .error .missing

/-- Makes one directory, whose parent has to exist. -/
def makeDirectory (d : Disk) (path : String) : Except FileFault Disk :=
  if path = "" then .error .missing
  else do
    let location ← d.locateParent path
    let (_, name, _) := splitLast path
    if name = "" ∨ name = "." ∨ name = ".." then .error .exists
    else if (d.root.get? (location ++ [name])).isSome then .error .exists
    else .ok { d with root := Entry.put (.directory []) (location ++ [name]) d.root }

/-- Makes a directory and those around it, at most `depth` of them, unless they exist. -/
def makeDirectoriesUpTo (depth : Nat) (d : Disk) (path : String) : Except FileError Disk :=
  match d.find path with
  | .ok (.directory _) => .ok d
  | .ok (.file _) => .error ⟨"mkdir", path, .notADirectory⟩
  | .error _ => do
    let (front, _, _) := splitLast path
    let d ← match depth with
      | 0 => .ok d
      | depth + 1 => if front = "" then .ok d else makeDirectoriesUpTo depth d front
    match d.makeDirectory path with
    | .ok d => .ok d
    | .error fault =>
      match d.find path with
      | .ok (.directory _) => .ok d
      | _ => .error ⟨"mkdir", path, fault⟩

/-- Makes a directory and those around it, unless they exist. -/
def makeDirectories (d : Disk) (path : String) : Except FileError Disk :=
  makeDirectoriesUpTo path.length d path

/-- Writes a file in a directory that exists, in place of an earlier file. -/
def writeFile (d : Disk) (path : String) (content : Text) : Except FileError Disk :=
  if path = "" then .error ⟨"open", path, .missing⟩
  else do
    let location ← (d.locateParent path).mapError fun fault => ⟨"open", path, fault⟩
    let (_, name, slashed) := splitLast path
    let isDirectory := ((d.root.get? (location ++ [name])).map Entry.isDirectory).getD false
    if slashed ∨ name = "" ∨ name = "." ∨ name = ".." ∨ isDirectory then
      .error ⟨"open", path, .isADirectory⟩
    else .ok { d with root := Entry.put (.file content) (location ++ [name]) d.root }

/-- The disk of a working directory with given files, and with further directories. -/
def ofFiles (files : List (String × Text)) (directories : List String) : Disk :=
  let location (path : String) : List String := (Path.components (Path.clean path)).filter (· ≠ ".")
  let withFiles := files.foldl (fun root (path, content) =>
    Entry.put (.file content) (location path) root) (.directory [])
  { root := directories.foldl (fun root path =>
      if (root.get? (location path)).isSome then root
      else Entry.put (.directory []) (location path) root) withFiles }

/-- The files of a disk that an earlier disk does not have, or has with another content. -/
def changes (before after : Disk) : List (String × Text) :=
  let old := before.root.files
  after.root.files.filter fun (path, content) => old.lookup path ≠ some content

end Disk

end CodeSmell
