import RobotJobs.Run.Terminal
import RobotJobs.Settings.File

/-!
# Sessions

A session is what a command needs before it looks at any job: the job folder, the look of
the output, the settings file that was used and the notices about settings.  Options win
over settings; a folder is taken from the base folder unless it starts at the root, and an
extension of which nothing would be left is ignored.
-/

namespace RobotJobs

/-- What a command needs. -/
structure Session where
  folder : JobFolder
  look : Look
  settingsFile : Option Path
  notices : List Notice

/-- The job folder that options and settings ask for. -/
def JobFolder.resolve (options : Options) (settings : Settings) : JobFolder :=
  let path := match options.folder with
    | some folder => options.base.join folder
    | none => settings.jobFolderPath options.base
  let extension := (options.extension.filter fun e => bareExtension e != "").getD settings.extension
  (({ path } : JobFolder).withExtension extension).withMarker settings.marker

/-- The session of a run with given options. -/
def Session.open (read : SettingsReader) (look : Path → FoundFile) (configFolder : Option Path)
    (env : Environment) (terminal : Terminal) (options : Options) : Session :=
  let (settings, notices) := Settings.load read look (some options.base) configFolder env
  let files := Settings.candidates (some options.base) configFolder
  { folder := .resolve options settings
    look := .choose options settings terminal
    settingsFile := Settings.usedFile? read look files
    notices }

end RobotJobs
