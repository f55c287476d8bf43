import CodeSmell.CommandLine.Run

/-!
# Watching by looking again

Without notifications from the system, changes are found by comparing two states of a disk. Only
what happens directly in a watched directory counts. Files that have changed and still exist are
analyzed again.
-/

set_option autoImplicit false

namespace CodeSmell

/-- What happened to entries between two states of a disk, in the order of paths: first what is
there now, then what is there no longer. -/
def Disk.eventsSince (before after : Disk) : List WatchEvent :=
  let listed (d : Disk) : List (String × Entry) :=
    match d.find "." with
    | .ok e => e.walk (fun _ => true) "."
    | .error _ => []
  let old := listed before
  let new := listed after
  let change? : String × Entry → Option WatchEvent := fun (path, e) =>
    match old.lookup path, e with
    | none, _ => some ⟨path, [.create]⟩
    | some (.file a), .file b => if a = b then none else some ⟨path, [.write]⟩
    | some (.directory _), .directory _ => none
    | some _, _ => some ⟨path, [.create]⟩
  new.filterMap change? ++
    (old.filter fun (path, _) => (new.lookup path).isNone).map fun (path, _) => ⟨path, [.remove]⟩

/-- Takes notice of what happened in watched directories. -/
def Watcher.follow (w : Watcher) (before after : Disk) : Watcher :=
  (before.eventsSince after).foldl (fun w e =>
    if w.watched.contains (Path.parent e.path) then (w.handle after e).1 else w) w

namespace CommandLine

/-- Analyzes changed files again, as far as they exist, and reports. -/
def reanalyze (d : Disk) (s : Settings) (changed : List String) (duration : String) : Text × Disk :=
  let existing := changed.filter fun file => (d.find file).toOption.isSome
  if existing.isEmpty then ([], d)
  else
    let lead : Text := "\nChanged: " ++ Text.ofString (", ".intercalate existing) ++ "\n\n"
    match analyzeFiles d s existing with
    | .error _ => (lead, d)
    | .ok analysis =>
      let (printed, d) := emitReport d s ((analysis.result duration).report s)
      (lead ++ printed, d)

/-- The settings under which a run with given arguments works; default ones when it has none. -/
def settingsOf (d : Disk) (arguments : List String) : Settings :=
  match Options.read arguments with
  | .error _ => {}
  | .ok o =>
    match d.loadSettings o.config with
    | .error _ => {}
    | .ok s => o.over s

end CommandLine

end CodeSmell
