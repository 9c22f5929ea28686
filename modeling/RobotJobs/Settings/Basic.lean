import RobotJobs.Job.Folder

/-!
# Settings

What can be set: the job folder, the extension of its files, the marker of references,
and how the output looks.  Settings are usable if the marker is not blank and something is
left of the extension when blank characters and then leading dots are dropped; otherwise
every line would be a reference or every file a job.  Settings from a file are checked for
this.
-/

namespace RobotJobs

/-- When the output is coloured. -/
inductive ColourMode where
  | auto
  | always
  | never
  deriving DecidableEq

namespace ColourMode

/-- The name of a mode. -/
def name : ColourMode → String
  | auto => "auto"
  | always => "always"
  | never => "never"

/-- The mode with a given name. -/
def ofName? (name : String) : Option ColourMode :=
  if name = "auto" then some auto
  else if name = "always" then some always
  else if name = "never" then some never
  else none

theorem ofName?_name (mode : ColourMode) :
  ofName? mode.name = some mode
  := by
  cases mode <;> decide

end ColourMode

/-- Everything that can be set. -/
structure Settings where
  folder : Path := Path.ofString "JOBS_FOLDER"
  extension : String := "JBI"
  marker : String := defaultMarker
  colour : ColourMode := .auto
  unicode : Bool := true

/-- An extension without the blank characters around it and the dots before it. -/
def bareExtension (extension : String) : String :=
  withoutLeadingDots (Text.trimmed extension)

namespace Settings

/-- Whether settings can be used. -/
def isUsable (s : Settings) : Bool :=
  Text.trimmed s.marker != "" && bareExtension s.extension != ""

/-- The path of the job folder, taken from a base folder unless it starts at the root. -/
def jobFolderPath (s : Settings) (base : Path) : Path :=
  base.join s.folder

end Settings

/-- Why settings cannot be used. -/
inductive SettingsFault where
  | blankMarker
  | blankExtension
  deriving DecidableEq

/-- The text of a fault. -/
def SettingsFault.message : SettingsFault → String
  | blankMarker => "jobs.directive must not be empty"
  | blankExtension => "jobs.extension must not be empty"

namespace Settings

/-- The settings, if they can be used. -/
def checked (s : Settings) : Except SettingsFault Settings :=
  if Text.trimmed s.marker = "" then .error .blankMarker
  else if bareExtension s.extension = "" then .error .blankExtension
  else .ok s

theorem isUsable_of_checked {s t : Settings} (h : s.checked = .ok t) :
  t.isUsable = true
  := by
  unfold checked at h
  split at h
  · cases h
  · split at h
    · cases h
    · cases h
      simp_all [isUsable]

end Settings

end RobotJobs
