import RobotJobs.Report.Style
import RobotJobs.Settings.File
import RobotJobs.Storage.View

/-!
# Hosts

A `Host` is all that a run needs from outside, in any monad.  Besides the file system and
the streams this is how settings files are read, the folder for those of the user, and how
styles are written where the output is coloured.  For a host that goes by its environment
alone, the environment says the last two of these.
-/

namespace RobotJobs

/-- What a run needs from outside. -/
structure Host (m : Type → Type) where
  name : String
  environment : Environment
  onTerminal : Bool
  coloured : Paint
  configFolder : Option Path
  readSettings : SettingsReader
  found : Path → m FoundFile
  view : JobFolder → m FileView
  remove : Path → m (Except StorageFault Unit)
  readLine : m (Except IoFailure String)
  print : String → m Unit
  printError : String → m Unit

/-- The paint for an output that is coloured or not. -/
def Host.paint {m : Type → Type} (host : Host m) (colour : Bool) : Paint :=
  if colour then host.coloured else .plain

namespace Environment

/-- The folder for the settings files of the user, as the environment names it. -/
def configFolder? (env : Environment) : Option Path :=
  match (env.get? "XDG_CONFIG_HOME").filter fun value => (Path.ofString value).isAbsolute with
  | some folder => some (Path.ofString folder)
  | none => ((env.get? "HOME").filter (· != "")).map fun home =>
    (Path.ofString home).join (Path.ofString ".config")

/-- The paint for a coloured output; the environment can switch the colours of it off. -/
def paint (env : Environment) : Paint :=
  .escaped ((env.get? "NO_COLOR").getD "" == "")

end Environment

end RobotJobs
