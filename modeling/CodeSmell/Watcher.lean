import CodeSmell.Files.Collection

/-!
# Watching directories

A watcher knows the directories whose changes it is told of, and queues the tree files that have
changed until they are delivered together. A directory that is created while watching is searched at
once, because files in it may have come before it was known.

Directories that hold no sources are not watched, nor are directories and files that the settings
exclude. Hidden files and leftovers of editors do not count as changed.
-/

set_option autoImplicit false

namespace CodeSmell

/-- What can happen to a file or directory. -/
inductive Change where
  | create
  | remove
  | write
  | rename
  | chmod
deriving DecidableEq, Repr

namespace Change

/-- The name of a change. -/
def name : Change → String
  | .create => "CREATE"
  | .remove => "REMOVE"
  | .write => "WRITE"
  | .rename => "RENAME"
  | .chmod => "CHMOD"

/-- Every change, in the order in which they are listed. -/
def all : List Change := [.create, .remove, .write, .rename, .chmod]

/-- The text of several changes. -/
def describe (changes : List Change) : String :=
  let names := (all.filter changes.contains).map name
  if names.isEmpty then "[no events]" else "|".intercalate names

end Change

/-- Changes to a path. -/
structure WatchEvent where
  path : String
  changes : List Change

/-- What a watcher reports about its work. -/
inductive WatchNote where
  | fileChanged
  | watchingDirectory
  | cannotWatch
  | handlerFailed
deriving DecidableEq, Repr

/-- A note as a line of a log. -/
def WatchNote.message : WatchNote → String
  | .fileChanged => "debug: file changed"
  | .watchingDirectory => "debug: watching new directory"
  | .cannotWatch => "warn: cannot watch new directory"
  | .handlerFailed => "error: change handler failed"

/-- Names of directories that are never watched. -/
def unwatchedDirectories : List String :=
  ["vendor", ".git", "node_modules", ".vscode", ".idea", "build", "dist", "tmp", "temp"]

/-- What the names of editors' leftovers end with. -/
def leftoverEndings : List String := [".tmp", "~", ".swp", ".swo"]

/-! ## The queue -/

/-- The changes that wait for delivery, by path. A later change to a path replaces an earlier
one. -/
abbrev Queue := Fields String (List Change)

namespace Queue

/-- Adds an event. -/
def add (q : Queue) (e : WatchEvent) : Queue := q.insert e.path e.changes

/-- The paths to deliver, if there are any, and the queue after their delivery. -/
def flush (q : Queue) : Option (List String) × Queue :=
  if q.entries.isEmpty then (none, .empty) else (some q.names, .empty)

end Queue

/-! ## The watcher -/

/-- A watcher with the patterns of what it leaves out and the directories it knows. The system was
asked to report on some directories, the latest one last. -/
structure Watcher where
  exclude : List Text := []
  directories : Fields String Unit := .empty
  requests : List String := []
  queue : Queue := .empty

/-- Why watching cannot start. -/
structure WatchError where
  path : String
  error : FileError

/-- The wording of an error. -/
def WatchError.message (e : WatchError) : String :=
  s!"failed to watch path {e.path}: {e.error.message}"

namespace Watcher

/-- Whether a directory is left out. -/
def skipsDirectory (w : Watcher) (path : String) : Bool :=
  unwatchedDirectories.contains (Path.base path) || isExcluded w.exclude path

/-- Whether a file is left out. -/
def skipsFile (w : Watcher) (path : String) : Bool :=
  let name := (Path.base path).toList
  name.head? = some '.' || leftoverEndings.any (fun ending => ending.toList.isSuffixOf name) ||
    isExcluded w.exclude path

/-- The directories that are watched. -/
def watched (w : Watcher) : List String := w.directories.names

/-- Adds a directory. Unless it is known, the system is asked to report on it. -/
def register (w : Watcher) (path : String) : Watcher :=
  if w.watched.contains path then w
  else { w with
    directories := w.directories.insert path ()
    requests := w.requests ++ [path] }

/-- Adds the directories at or below a path; also gives the tree files there that count. -/
def addTree (w : Watcher) (d : Disk) (path : String) : Except FileError (Watcher × List String) :=
  (d.findFor "lstat" path).map fun e =>
    let visited := e.walk (fun dir => !w.skipsDirectory dir) path
    let directories := (visited.filter (·.2.isDirectory)).map Prod.fst
    let files := (visited.filter fun (path, e) =>
      !e.isDirectory && isTreeFile path && !w.skipsFile path).map Prod.fst
    (directories.foldl register w, files)

/-- Starts watching a path. For a file this is the directory that holds it. -/
def start (w : Watcher) (d : Disk) (path : String) : Except WatchError Watcher := do
  let e ← (d.findFor "stat" path).mapError (⟨path, ·⟩)
  let dir := if e.isDirectory then path else Path.parent path
  let (w, _) ← (w.addTree d dir).mapError (⟨dir, ·⟩)
  return w

/-- Starts watching several paths. -/
def startAll (w : Watcher) (d : Disk) (paths : List String) : Except WatchError Watcher :=
  paths.foldlM (fun w path => w.start d path) w

/-- Takes notice of a new directory: watches it and queues the files that are in it already. -/
def addNew (w : Watcher) (d : Disk) (path : String) : Watcher × List WatchNote :=
  if w.skipsDirectory path then (w, [])
  else match w.addTree d path with
    | .error _ => (w, [.cannotWatch])
    | .ok (w, files) =>
      ({ w with queue := files.foldl (fun q file => q.add ⟨file, [.create]⟩) w.queue },
        [.watchingDirectory])

/-- Takes notice of an event. -/
def handle (w : Watcher) (d : Disk) (e : WatchEvent) : Watcher × List WatchNote :=
  if e.changes.contains .create && (d.find e.path).toOption.any Entry.isDirectory then
    w.addNew d e.path
  else if isTreeFile e.path && !w.skipsFile e.path then
    ({ w with queue := w.queue.add e }, [.fileChanged])
  else (w, [])

/-- Delivers what is queued to a handler that may fail. -/
def deliver (w : Watcher) (fails : Bool) : Option (List String) × Watcher × List WatchNote :=
  let (batch, queue) := w.queue.flush
  (batch, { w with queue := queue }, if batch.isSome && fails then [.handlerFailed] else [])

end Watcher

end CodeSmell
