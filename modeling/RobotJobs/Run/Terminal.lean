import RobotJobs.Call.Drawing
import RobotJobs.CommandLine.Basic
import RobotJobs.Settings.Environment
import RobotJobs.Text.LetterCase

/-!
# The look of the output

What an output can show follows from the environment and from whether it goes to a
terminal.  The `Look` of a run follows from this, from the options and from the settings:
an option decides before the settings do, and colour that nobody asked for is used on a
terminal only, and not in an automated build.
-/

namespace RobotJobs

/-- What the output can show, and whether the run is part of an automated build. -/
structure Terminal where
  colour : Bool
  unicode : Bool
  automated : Bool
  deriving DecidableEq

namespace Terminal

/-- The variables that tell of an automated build. -/
def buildVariables : List String :=
  ["CI", "GITHUB_ACTIONS", "JENKINS_HOME", "GITLAB_CI", "TF_BUILD"]

/-- What an output can show that goes to a terminal, or not. -/
def ofEnvironment (env : Environment) (onTerminal : Bool) : Terminal :=
  let dumb := Text.sameLetters ((env.get? "TERM").getD "") "dumb"
  { colour := onTerminal && !dumb && !env.has "NO_COLOR"
    unicode := !dumb
    automated := buildVariables.any env.has }

/-- Whether colour is used unless somebody decides about it. -/
def wantsColour (t : Terminal) : Bool :=
  t.colour && !t.automated

end Terminal

/-- How the output of a run looks. -/
structure Look where
  verbosity : Nat
  colour : Bool
  unicode : Bool
  deriving DecidableEq

namespace Look

/-- The look that options and settings ask for. -/
def choose (options : Options) (settings : Settings) (terminal : Terminal) : Look where
  verbosity := options.verbosity
  colour :=
    match options.colour with
    | some .never => false
    | some .always => true
    | _ => match settings.colour with
      | .never => false
      | .always => true
      | .auto => terminal.wantsColour
  unicode := !options.ascii && settings.unicode && terminal.unicode

/-- The connectors of drawings. -/
def glyphs (look : Look) : Glyphs :=
  .choose look.unicode

end Look

end RobotJobs
