import CodeSmell.Examination
import CodeSmell.Files.Disk
import CodeSmell.Report.Result
import CodeSmell.Tree.Reader

/-!
# Analyzing files

A file is analyzed by reading the tree in it and examining the tree. A file that is too large,
cannot be read, or holds no proper tree is skipped for a reason. Files are analyzed independently
of each other, and the warnings about them are listed in the order of the files.
-/

set_option autoImplicit false

namespace CodeSmell

/-- Why a file is skipped. -/
inductive SkipReason where
  | noSize (file : String) (e : FileError)
  | tooLarge (file : String) (limit : Int)
  | unreadable (file : String) (e : FileError)
  | noTree (file : String) (e : SyntaxError)
  | malformed (file : String) (m : Malformed)

/-- The wording of a reason. -/
def SkipReason.message : SkipReason → String
  | .noSize file e => s!"failed to stat {file}: {e.message}"
  | .tooLarge file limit => s!"{file} exceeds max file size of {limit} KB"
  | .unreadable file e => s!"failed to read {file}: {e.message}"
  | .noTree file e => e.message file
  | .malformed file m => s!"cannot examine {file}: {m.message}"

/-- Whether a size is beyond a limit in units of 1024 bytes. The limit in bytes is a signed 64-bit
word; a limit that is not positive admits every size. -/
def exceedsLimit (limit : Int) (size : Nat) : Bool :=
  0 < limit && wrapInt64 (limit * 1024) < (size : Int)

/-- What analyzing a file can come to: warnings, a reason to skip it, or a tree that cannot be
shown. -/
abbrev FileAnalysis := Except RenderFault (Except SkipReason (List Warning))

/-- Checks the size of a file against the limit, if there is one. -/
def checkSize (d : Disk) (limit : Int) (file : String) : Except SkipReason Unit :=
  if 0 < limit then do
    let e ← (d.findFor "stat" file).mapError (.noSize file)
    if exceedsLimit limit e.size then .error (.tooLarge file limit) else .ok ()
  else .ok ()

/-- Reads the tree in a file. -/
def readTree (d : Disk) (limit : Int) (file : String) : Except SkipReason Tree := do
  checkSize d limit file
  let content ← (d.read file).mapError (.unreadable file)
  (Tree.read content.sourceChars).mapError (.noTree file)

/-- Analyzes a file. -/
def analyzeFile (d : Disk) (s : Settings) (file : String) : FileAnalysis :=
  match readTree d s.files.maxSize file with
  | .error reason => .ok (.error reason)
  | .ok tree =>
    match tree.examine s file with
    | .ok warnings => .ok (.ok warnings)
    | .error (.malformed m) => .ok (.error (.malformed file m))
    | .error (.render fault) => .error fault

/-- What analyzing several files gave. -/
structure Analysis where
  files : List String := []
  warnings : List Warning := []
  skipped : List (String × SkipReason) := []

/-- The outcome for files whose own outcomes are given. -/
def Analysis.ofOutcomes : List (String × Except SkipReason (List Warning)) → Analysis
  | [] => {}
  | (file, .ok warnings) :: rest =>
    let a := ofOutcomes rest
    { a with files := file :: a.files, warnings := warnings ++ a.warnings }
  | (file, .error reason) :: rest =>
    let a := ofOutcomes rest
    { a with skipped := (file, reason) :: a.skipped }

/-- Analyzes files. -/
def analyzeFiles (d : Disk) (s : Settings) (files : List String) : Except RenderFault Analysis := do
  let outcomes ← files.mapM fun file => (analyzeFile d s file).map (file, ·)
  return .ofOutcomes outcomes

/-- The result of an analysis that took a given time. -/
def Analysis.result (a : Analysis) (duration : String) : Result :=
  { files := a.files, warnings := a.warnings, duration := duration }

end CodeSmell
