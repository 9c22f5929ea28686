import RobotJobs.Settings.Basic
import RobotJobs.Text.LetterCase

/-!
# Settings from the environment

Environment variables override single settings.  A blank value overrides no folder and no
marker, and a value of which nothing would be left overrides no extension.
-/

namespace RobotJobs

/-- The environment variables of a run. -/
structure Environment where
  entries : List (String × String) := []

namespace Environment

/-- The value of a variable. -/
def get? (env : Environment) (name : String) : Option String :=
  env.entries.lookup name

/-- Whether a variable is set. -/
def has (env : Environment) (name : String) : Bool :=
  (env.get? name).isSome

/-- The value of a variable that is not blank. -/
def getShown? (env : Environment) (name : String) : Option String :=
  (env.get? name).filter fun value => Text.trimmed value != ""

end Environment

/-- Whether the value of a variable switches something on. -/
def switchesOn (value : String) : Bool :=
  Text.lowered value != "false" && value != "0"

/-- The colour mode that the value of a variable asks for. -/
def ColourMode.ofVariable (value : String) : ColourMode :=
  (ColourMode.ofName? (Text.lowered value)).getD .auto

namespace Settings

/-- The settings with those of the environment put over them. -/
def override (s : Settings) (env : Environment) : Settings where
  folder := ((env.getShown? "JOBPRUNE_FOLDER").map Path.ofString).getD s.folder
  extension :=
    (((env.get? "JOBPRUNE_EXTENSION").map bareExtension).filter (· != "")).getD s.extension
  marker := ((env.getShown? "JOBPRUNE_DIRECTIVE").map Text.trimmed).getD s.marker
  colour := ((env.get? "JOBPRUNE_COLOR").map ColourMode.ofVariable).getD s.colour
  unicode := ((env.get? "JOBPRUNE_UNICODE").map switchesOn).getD s.unicode

end Settings

end RobotJobs
