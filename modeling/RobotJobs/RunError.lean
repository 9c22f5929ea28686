import RobotJobs.Path

/-!
# Errors that end a run

Problems with single files are recorded and never end a run; what does end it is a
`RunError`.  Three of them are met before the sweep begins, so that no file can have been
deleted.
-/

namespace RobotJobs

/-- Why a run ended early. -/
inductive RunError where
  | noJobName
  | rootNotFound (path : Path)
  | rootCaseDiffers (given fileName : String)
  | folderNotFound (path : Path)
  | badSettings (file : Path) (reason : String)
  | io (text : String)
  deriving DecidableEq

namespace RunError

/-- The text of an error. -/
def message : RunError → String
  | noJobName => "No job name provided."
  | rootNotFound path => "Starting job file not found: " ++ path.display
  | rootCaseDiffers given fileName =>
    "Starting job '" ++ given ++ "' only matches '" ++ fileName ++
      "' when case is ignored; job names are case-sensitive."
  | folderNotFound path => "Folder '" ++ path.display ++ "' does not exist."
  | badSettings file reason => "invalid config in " ++ file.display ++ ": " ++ reason
  | io text => "IO error: " ++ text

/-- Whether the error guarantees that nothing was deleted. -/
def precedesSweep : RunError → Bool
  | noJobName | rootNotFound _ | rootCaseDiffers _ _ => true
  | _ => false

end RunError

end RobotJobs
