import CodeSmell.Files.Disk
import CodeSmell.Settings.Reading
import CodeSmell.Settings.Writing

/-!
# Settings on a disk

Settings are kept in a file, as a document that a codec writes and reads. When no file is named, the
usual places are tried in turn, and without any such file the default settings hold.
-/

set_option autoImplicit false

namespace CodeSmell

/-- The usual places of settings, best first. -/
def usualSettingsFiles : List String :=
  [".smellcheck.yml", ".smellcheck.yaml", "smellcheck.yml", "smellcheck.yaml",
    ".config/smellcheck.yml", ".config/smellcheck.yaml"]

/-- Why settings cannot be loaded. -/
inductive LoadError where
  | unreadable (file : String) (e : FileError)
  | rejected (file : String) (e : SettingsError)

/-- The wording of an error. -/
def LoadError.message : LoadError → Text
  | .unreadable file e => s!"failed to read config file {file}: {e.message}"
  | .rejected file e => e.message file

/-- Why settings cannot be saved. -/
inductive SaveError where
  | directory (e : FileError)
  | file (e : FileError)

/-- The wording of an error. -/
def SaveError.message : SaveError → String
  | .directory e => s!"failed to create config directory: {e.message}"
  | .file e => s!"failed to write config file: {e.message}"

namespace Disk

/-- The file in which settings are found: the one that is named or the first usual one there is. -/
def settingsFile? (d : Disk) (named : String) : Option String :=
  if named ≠ "" then some named
  else usualSettingsFiles.find? fun file => (d.find file).toOption.isSome

/-- Loads settings with a codec from a named file, or from a usual one if the name is empty. -/
def loadSettingsWith (y : Yaml.Codec) (d : Disk) (named : String) : Except LoadError Settings :=
  match d.settingsFile? named with
  | none => .ok {}
  | some file => do
    let content ← (d.read file).mapError (.unreadable file)
    (Settings.read y content).mapError (.rejected file)

/-- Saves settings with a codec in a file, whose directory is made if it is missing. -/
def saveSettingsWith (y : Yaml.Codec) (d : Disk) (s : Settings) (file : String) :
    Except SaveError Disk := do
  let d ← (d.makeDirectories (Path.parent file)).mapError .directory
  (d.writeFile file (y.write s.entries)).mapError .file

/-- Loads settings from a named file, or from a usual one if the name is empty. -/
def loadSettings : Disk → String → Except LoadError Settings := loadSettingsWith Yaml.codec

/-- Saves settings in a file, whose directory is made if it is missing. -/
def saveSettings : Disk → Settings → String → Except SaveError Disk := saveSettingsWith Yaml.codec

end Disk

end CodeSmell
