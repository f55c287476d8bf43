import CodeSmell.CommandLine.Polling
import CodeSmell.Report.Duration

/-!
# The program

Takes a snapshot of the working directory, runs the command line on it, prints what the run prints,
and writes the files that the run has changed. Paths of arguments that lead out of the working
directory are part of the snapshot as well.
-/

set_option autoImplicit false

namespace CodeSmell

namespace Program

/-- Whether the content of a file matters: it holds a tree or settings, or an argument names it. -/
def matters (arguments : List String) (name : String) : Bool :=
  isTreeFile name || [".yml", ".yaml"].any (fun e => e.toList.isSuffixOf name.toList) ||
    arguments.any fun argument => name.toList.isSuffixOf argument.toList

/-- A file or directory of the system. Links to directories are not followed, and what cannot be
read counts as empty. -/
partial def snapshot (arguments : List String) (e : IO.FS.DirEntry) : IO Entry := do
  let metadata ← e.path.symlinkMetadata
  if metadata.type == .dir then
    let inner ← (e.path.readDir).catchExceptions fun _ => pure #[]
    let entries ← inner.toList.mapM fun e => do pure (e.fileName, ← snapshot arguments e)
    return .directory (Fields.ofList entries).entries
  else if matters arguments e.fileName then
    let content ← (IO.FS.readBinFile e.path).catchExceptions fun _ => pure .empty
    return .file content.toList
  else return .file []

/-- The components of a path that are names. -/
def names (path : String) : List String :=
  (Path.components (Path.clean path)).filter fun name => name ≠ "" && name ≠ "."

/-- The disk that a run with given arguments can see. -/
def diskFor (arguments : List String) : IO Disk := do
  let here ← IO.currentDir
  let outside := arguments.filter fun argument =>
    argument.toList.head? = some '/' || (Path.components argument).contains ".."
  let mut root : Entry := .directory []
  for path in here.toString :: outside do
    let place := if path.toList.head? = some '/' then path else s!"{here}/{path}"
    let entry ← (some <$> snapshot arguments { root := place, fileName := "." }).catchExceptions
      fun _ => pure none
    if let some entry := entry then
      if (root.get? (names place)).isNone then root := Entry.put entry (names place) root
  return { root := root, here := names here.toString }

/-- Writes the files in which two disks differ. -/
def writeChanges (before after : Disk) : IO Unit := do
  for (path, content) in Disk.changes before after do
    IO.FS.createDirAll ("/" ++ Path.parent path)
    IO.FS.writeBinFile ("/" ++ path) (ByteArray.mk content.toArray)

/-- Prints text as it is. -/
def emit (text : Text) : IO Unit := do
  let out ← IO.getStdout
  out.write (ByteArray.mk text.toArray)
  out.flush

/-- Looks for changes twice a second, for ever. -/
partial def keepWatching (arguments : List String) (s : Settings) (w : Watcher) (d : Disk) :
    IO Unit := do
  IO.sleep 500
  let now ← diskFor arguments
  let (batch, w, _) := (w.follow d now).deliver false
  let start ← IO.monoNanosNow
  let (printed, after) := CommandLine.reanalyze now s (batch.getD []) ""
  let stop ← if printed.isEmpty then pure start else IO.monoNanosNow
  if batch.isSome then
    let (printed, _) := CommandLine.reanalyze now s (batch.getD []) (Duration.text (stop - start))
    emit printed
    writeChanges now after
  keepWatching arguments s w after

end Program

end CodeSmell

open CodeSmell Program in
/-- Runs the command line. The time that is reported is that of a first run over the snapshot. -/
def main (arguments : List String) : IO UInt32 := do
  let disk ← diskFor arguments
  let start ← IO.monoNanosNow
  let trial := CommandLine.run disk arguments ""
  let stop ← if trial.output.isEmpty then pure start else IO.monoNanosNow
  let outcome := CommandLine.run disk arguments (Duration.text (stop - start))
  emit outcome.output
  writeChanges disk outcome.disk
  match outcome.ending with
  | .status code => return code.toUInt32
  | .watching w =>
    keepWatching arguments (CommandLine.settingsOf outcome.disk arguments) w outcome.disk
    return 0
