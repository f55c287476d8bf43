import CodeSmell.Analysis
import CodeSmell.CommandLine.Flags
import CodeSmell.Files.Collection
import CodeSmell.Report.Basic
import CodeSmell.Settings.Storage
import CodeSmell.Watcher

/-!
# Running the command line

A run reads its arguments, loads settings, collects files, analyzes them and reports. What it
prints, the disk it leaves and its exit status are its outcome. The status is one when the
arguments or the settings are wrong, and when the quality score is below the threshold of a fair
one.
-/

set_option autoImplicit false

namespace CodeSmell

namespace CommandLine

/-- The help text. -/
def helpText : String := "\n".intercalate
  ["smellcheck walks syntax trees serialized as S-expressions (.sexp files)",
    "and reports design smells: duplicate method calls, feature envy, instance",
    "variable assumptions and classes with too many instance variables.",
    "",
    "Examples:",
    "  smellcheck .                             # Analyze current directory",
    "  smellcheck user.sexp order.sexp          # Analyze specific files",
    "  smellcheck --format=json .               # Output results in JSON format",
    "  smellcheck --config=.smellcheck.yml .    # Use custom config",
    "  smellcheck --watch .                     # Re-analyze on every change",
    "  smellcheck --generate-config             # Generate sample config file",
    "",
    "Usage:",
    "  smellcheck [files or directories] [flags]",
    "",
    "Flags:",
    "  -c, --config string     Path to configuration file",
    "  -f, --format string     Output format (console, json)",
    "      --generate-config   Generate sample configuration file",
    "  -h, --help              help for smellcheck",
    "  -v, --verbose           Verbose output and debug logging",
    "  -w, --watch             Watch mode for development",
    ""]

/-- The file into which sample settings are written. -/
def sampleFile : String := ".smellcheck.yml"

/-- How a run ends. A run that watches goes on until it is interrupted. -/
inductive Ending where
  | status (code : Nat)
  | watching (w : Watcher)

/-- What a run prints, the disk it leaves, and how it ends. -/
structure Outcome where
  output : Text := []
  disk : Disk
  ending : Ending := .status 0

namespace Outcome

/-- Puts text in front of what a run prints. -/
def after (o : Outcome) (text : Text) : Outcome := { o with output := text ++ o.output }

/-- The exit status; an interrupted watcher ends well. -/
def status (o : Outcome) : Nat :=
  match o.ending with
  | .status code => code
  | .watching _ => 0

end Outcome

/-- Writes sample settings. -/
def generateConfig (d : Disk) : Outcome :=
  match d.saveSettings {} sampleFile with
  | .error e =>
    { output := s!"Failed to generate config file: {e.message}\n", disk := d, ending := .status 1 }
  | .ok d =>
    { output := "\n".intercalate
        [s!"Generated sample configuration file: {sampleFile}",
          "Edit this file to customize smellcheck behavior",
          s!"Run 'smellcheck --config={sampleFile} .' to use it", ""]
      disk := d }

/-- The files below paths, and messages about paths where nothing could be collected. -/
def collectAll (d : Disk) (exclude : List Text) : List String → Text × List String
  | [] => ([], [])
  | path :: paths =>
    let (messages, files) := collectAll d exclude paths
    match d.collect exclude path with
    | .ok found => (messages, found ++ files)
    | .error e =>
      (Text.ofString s!"Error collecting files from {path}: {e.message}\n" ++ messages, files)

/-- Writes a report into a file, whose directory is made if it is missing. -/
def writeReport (d : Disk) (report : Text) (file : String) : Except FileError Disk := do
  let d ← d.makeDirectories (Path.parent file)
  d.writeFile file report

/-- Prints a report, or writes it into the file that the settings name. -/
def emitReport (d : Disk) (s : Settings) (report : Text) : Text × Disk :=
  let file := s.output.file
  if file = [] then (report, d)
  else match writeReport d report file.shown with
    | .ok d => ("Report saved to: " ++ file ++ "\n", d)
    | .error e => (s!"Failed to write report to file: {e.message}\n", d)

/-- What is printed before files are analyzed. -/
def announcement (s : Settings) (config : String) (count : Nat) : Text :=
  if s.output.verbose then
    let names := ", ".intercalate (Smell.all.map Smell.name)
    s!"Analyzing {count} files with {Smell.all.length} detectors: {names}\n" ++
      (if config = "" then "" else s!"Using configuration: {config}\n") ++ "\n"
  else if s.output.format = "json" then []
  else s!"Analyzing {count} files...\n\n"

/-- Starts to watch paths. -/
def startWatching (d : Disk) (s : Settings) (paths : List String) : Outcome :=
  match Watcher.startAll { exclude := s.files.exclude.getD [] } d paths with
  | .error e =>
    { output := s!"Failed to start watch mode: {e.message}\n", disk := d, ending := .status 1 }
  | .ok w =>
    { output :=
        s!"Watching {w.watched.length} directories for changes (Ctrl+C to stop)...\n"
      disk := d
      ending := .watching w }

/-- Settings with the flags laid over them. -/
def Options.over (o : Options) (s : Settings) : Settings :=
  { s with
    output := { s.output with
      format := if o.format = "" then s.output.format else o.format
      verbose := o.verbose || s.output.verbose } }

/-- Analyzes files that were collected and reports. The status of a run that cannot show a tree is
two. -/
def analyzeAndReport (d : Disk) (o : Options) (s : Settings) (paths files : List String)
    (duration : String) : Outcome :=
  let lead := announcement s o.config files.length
  match analyzeFiles d s files with
  | .error _ => { output := lead, disk := d, ending := .status 2 }
  | .ok analysis =>
    let result := analysis.result duration
    let (printed, d) := emitReport d s (result.report s)
    let outcome :=
      if o.watch then startWatching d s paths
      else
        { disk := d
          ending := .status (if (result.score : Int) < s.thresholds.fair then 1 else 0) }
    outcome.after (lead ++ printed)

/-- Collects files, analyzes them and reports. A run whose settings cannot even be refused has the
status two and says nothing. -/
def analyze (d : Disk) (o : Options) (duration : String) : Outcome :=
  match d.loadSettings o.config with
  | .error (.rejected _ .collectionKey) => { disk := d, ending := .status 2 }
  | .error e =>
    { output := "Error loading configuration: " ++ e.message ++ "\n"
      disk := d
      ending := .status 1 }
  | .ok settings =>
    let s := o.over settings
    let paths := if o.paths.isEmpty then ["."] else o.paths
    let (messages, files) := collectAll d (s.files.exclude.getD []) paths
    let outcome :=
      if files.isEmpty then
        { output := s!"No {treeExtension} files found to analyze\n", disk := d }
      else analyzeAndReport d o s paths files duration
    outcome.after messages

/-- Runs the command line with arguments on a disk. `duration` is the time that the report says the
analysis took. -/
def run (d : Disk) (arguments : List String) (duration : String) : Outcome :=
  match Options.read arguments with
  | .error e => { output := e.message ++ "\n", disk := d, ending := .status 1 }
  | .ok o =>
    if o.help then { output := helpText, disk := d }
    else if o.generateConfig then generateConfig d
    else analyze d o duration

end CommandLine

end CodeSmell
