import RobotJobs.Storage.Fault

/-!
# File views

A `FileView` is what can be asked about stored files as long as nothing changes them:
which paths are folders, which files a folder holds, and what a file contains.  Only
finitely many contents can come out of a view; it carries a list that has them all.
-/

namespace RobotJobs

/-- The answers of a store that stays as it is. -/
structure FileView where
  isFolder : Path → Bool
  list : Path → Except StorageFault (List Path)
  read : Path → Except StorageFault (List UInt8)
  contents : List (List UInt8)
  mem_contents : ∀ {path bytes}, read path = .ok bytes → bytes ∈ contents

namespace FileView

/-- The names of the files in a folder, in order, unless the folder cannot be listed. -/
def fileNames? (view : FileView) (folder : Path) : Option (List String) :=
  match view.list folder with
  | .ok paths => some ((paths.filterMap Path.fileNameText?).eraseDups.mergeSort)
  | .error _ => none

end FileView

end RobotJobs
