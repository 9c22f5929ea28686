import RobotJobs.RunError
import RobotJobs.Settings.Environment
import RobotJobs.Settings.Notice
import RobotJobs.Storage.Fault
import RobotJobs.Text.Split

/-!
# Settings files

A settings file is looked for in the base folder and then in the folder for the settings
of the user.  The first one that can be used gives all settings that are not overridden by
the environment; nothing is taken from a file that was refused or that comes later.  Each
refusal is noted, and so are the unknown keys of the file that was used.

What the text of a file says is told by a `SettingsReader`, which every run is given, as it
is given the folder of the user.
-/

namespace RobotJobs

/-- What is found under the path of a settings file: no file, or what a read of it gives. -/
abbrev FoundFile := Option (Except IoFailure (List UInt8))

/-- How the text of a settings file is read: it gives settings together with the paths of its
unknown keys, or the text of what is wrong with it. -/
abbrev SettingsReader := List Char → Except String (Settings × List String)

/-- What follows the last point of the path of a key. -/
def lastPart (path : String) : String :=
  String.ofList ((Text.segments '.' path.toList).getLastD [])

namespace Settings

/-- The settings that a text gives if they can be used, with its unknown keys, or the text of
what is wrong. -/
def ofText (read : SettingsReader) (content : List Char) :
    Except String (Settings × List String) := do
  let (s, unknown) ← read content
  let s ← s.checked.mapError SettingsFault.message
  .ok (s, unknown.map lastPart)

/-- The settings that a file gives, with notices about its unknown keys. -/
def ofFile (read : SettingsReader) (file : Path) (answer : Except IoFailure (List UInt8)) :
    Except RunError (Settings × List Notice) :=
  match answer with
  | .error failure => .error (.io failure.text)
  | .ok bytes => match Text.decode? bytes with
    | none => .error (.io IoFailure.notText.text)
    | some content => match ofText read content with
      | .error reason => .error (.badSettings file reason)
      | .ok (s, unknown) => .ok (s, unknown.map (Notice.ofKey file content))

/-- The name of the settings file in a base folder. -/
def projectFile : Path := Path.ofString ".jobprune.toml"

/-- The path of the settings file of the user in the folder for such files. -/
def userFile : Path := Path.ofString "jobprune/config.toml"

/-- Where settings files are looked for, in order. -/
def candidates (base configFolder : Option Path) : List Path :=
  (base.map (·.join projectFile)).toList ++ (configFolder.map (·.join userFile)).toList

/-- The settings of the first usable file, or those that nothing was set for, with all
notices on the way. -/
def firstUsable (read : SettingsReader) (look : Path → FoundFile) :
    List Path → Settings × List Notice
  | [] => ({}, [])
  | file :: files =>
    match look file with
    | none => firstUsable read look files
    | some answer => match ofFile read file answer with
      | .ok found => found
      | .error e =>
        let (s, notices) := firstUsable read look files
        (s, .skipped file e.message :: notices)

/-- The first usable file. -/
def usedFile? (read : SettingsReader) (look : Path → FoundFile) (files : List Path) :
    Option Path :=
  files.find? fun file => (look file).any fun answer => (ofFile read file answer).isOk

/-- The settings of a run, with the notices about them. -/
def load (read : SettingsReader) (look : Path → FoundFile) (base configFolder : Option Path)
    (env : Environment) : Settings × List Notice :=
  let (s, notices) := firstUsable read look (candidates base configFolder)
  (s.override env, notices)

end Settings

end RobotJobs
