import RobotJobs.Job.Folder
import RobotJobs.Storage.View

/-!
# Problems with job files

A job whose file is missing or cannot be read stays in the call tree; what is wrong
with it is recorded as a `Problem`.
-/

namespace RobotJobs

/-- What is wrong with the file of a job. -/
inductive Problem where
  | notFound (job : JobName) (fileName : String) (folder : Path)
  | unreadable (job : JobName) (path : Path) (reason : String)
  deriving DecidableEq

namespace Problem

/-- The job that a problem is about. -/
def job : Problem → JobName
  | notFound job _ _ => job
  | unreadable job _ _ => job

/-- The text of a problem. -/
def message : Problem → String
  | notFound _ fileName folder =>
    "File '" ++ fileName ++ "' not found in folder: " ++ folder.display
  | unreadable _ path reason =>
    "Failed to open file '" ++ path.display ++ "': " ++ reason

end Problem

namespace JobFolder

/-- The problem of a job that has no file in the folder. -/
def missing (folder : JobFolder) (job : JobName) : Problem :=
  .notFound job (folder.fileName job) folder.path

/-- The problem of a job whose file could not be read. -/
def refused (folder : JobFolder) (job : JobName) (fault : StorageFault) : Problem :=
  if fault.isNotFound then folder.missing job
  else .unreadable job (folder.jobPath job) fault.message

end JobFolder

end RobotJobs
