import RobotJobs.Job.Folder
import RobotJobs.RunError
import RobotJobs.Storage.View

/-!
# Sweeps

A sweep goes through the files of a job folder.  A file that belongs to a job is kept if
the job is to be kept; any other one is deleted, or only reported in a dry run.  A file
that cannot be deleted is reported too and the sweep goes on.  Files that belong to no
job are left alone and not reported.

`SweepEntry.all` is the plan: the files that belong to jobs, in the order of the folder.
`sweep` carries it out with a given way to remove a file, in any monad.
-/

namespace RobotJobs

/-- What happened to a file. -/
inductive Fate where
  | kept
  | deleted
  | wouldDelete
  | failed (reason : String)
  deriving DecidableEq

/-- The text of a fate. -/
def Fate.message : Fate → String
  | kept => "kept"
  | deleted => "deleted"
  | wouldDelete => "would delete"
  | failed reason => "failed: " ++ reason

/-- What happened to which file. -/
structure Outcome where
  fileName : String
  path : Path
  fate : Fate
  deriving DecidableEq

/-- A file that belongs to a job. -/
structure SweepEntry where
  fileName : String
  path : Path
  job : JobName
  deriving DecidableEq

namespace SweepEntry

/-- The entry for a path, if it belongs to a job. -/
def ofPath? (folder : JobFolder) (path : Path) : Option SweepEntry :=
  match path.fileNameText? with
  | none => none
  | some fileName => (folder.jobOf? fileName).map fun job => ⟨fileName, path, job⟩

/-- The entries of a folder, in order, or the reason why there are none. -/
def all (view : FileView) (folder : JobFolder) : Except RunError (List SweepEntry) :=
  if !view.isFolder folder.path then .error (.folderNotFound folder.path)
  else match view.list folder.path with
    | .error fault => .error (.io ("cannot list " ++ folder.path.display ++ ": " ++ fault.message))
    | .ok paths => .ok (paths.filterMap (ofPath? folder))

end SweepEntry

/-- The outcomes of a sweep, with `remove` to remove a file. -/
def sweep {m : Type → Type} [Monad m] (remove : Path → m (Except StorageFault Unit))
    (keep : List JobName) (dryRun : Bool) : List SweepEntry → m (List Outcome)
  | [] => pure []
  | e :: es => do
    let fate ←
      if keep.contains e.job then pure .kept
      else if dryRun then pure .wouldDelete
      else do
        match ← remove e.path with
        | .ok () => pure .deleted
        | .error fault => pure (.failed fault.message)
    let outcomes ← sweep remove keep dryRun es
    pure (⟨e.fileName, e.path, fate⟩ :: outcomes)

namespace Outcome

/-- How many files were kept. -/
def keptCount (outcomes : List Outcome) : Nat :=
  outcomes.countP fun o => o.fate matches .kept

/-- How many files were deleted, or would have been. -/
def deletedCount (outcomes : List Outcome) : Nat :=
  outcomes.countP fun o => o.fate matches .deleted | .wouldDelete

/-- How many files could not be deleted. -/
def failedCount (outcomes : List Outcome) : Nat :=
  outcomes.countP fun o => o.fate matches .failed _

/-- Whether every deletion succeeded. -/
def allSucceeded (outcomes : List Outcome) : Bool :=
  failedCount outcomes == 0

/-- The names of the files with a given fate. -/
def fileNamesWith (fate : Fate) (outcomes : List Outcome) : List String :=
  (outcomes.filter fun o => o.fate = fate).map Outcome.fileName

end Outcome

end RobotJobs
