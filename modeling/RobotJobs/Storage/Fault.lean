import RobotJobs.Path

/-!
# Storage faults

The operating system refuses an operation with an `IoFailure`: a class and a text.  A
`StorageFault` keeps the path for the two classes that matter to a reader of jobs,
missing and denied, and the text for every other one.
-/

namespace RobotJobs

/-- The classes of refusals that are told apart. -/
inductive FailureClass where
  | missing
  | denied
  | other
  deriving DecidableEq

/-- A refusal of the operating system. -/
structure IoFailure where
  kind : FailureClass
  text : String
  deriving DecidableEq

namespace IoFailure

/-- There is nothing under the name. -/
def noEntry : IoFailure := ⟨.missing, "No such file or directory (os error 2)"⟩

/-- A file stands where a folder is needed. -/
def notFolder : IoFailure := ⟨.other, "Not a directory (os error 20)"⟩

/-- A folder stands where a file is needed. -/
def isFolder : IoFailure := ⟨.other, "Is a directory (os error 21)"⟩

/-- A name or a whole path is too long. -/
def nameTooLong : IoFailure := ⟨.other, "File name too long (os error 36)"⟩

/-- Links lead on and on. -/
def linkLoop : IoFailure := ⟨.other, "Too many levels of symbolic links (os error 40)"⟩

/-- A path holds a zero byte. -/
def zeroByte : IoFailure := ⟨.other, "file name contained an unexpected NUL byte"⟩

/-- Bytes that should be text are none. -/
def notText : IoFailure := ⟨.other, "stream did not contain valid UTF-8"⟩

end IoFailure

/-- Why a storage operation failed. -/
inductive StorageFault where
  | notFound (path : Path)
  | denied (path : Path)
  | failed (text : String)
  deriving DecidableEq

namespace StorageFault

/-- The fault for a refusal that concerns a path. -/
def ofIo (failure : IoFailure) (path : Path) : StorageFault :=
  match failure.kind with
  | .missing => notFound path
  | .denied => denied path
  | .other => failed failure.text

/-- Whether the fault says that there is nothing under the path. -/
def isNotFound : StorageFault → Bool
  | notFound _ => true
  | _ => false

/-- The text of a fault. -/
def message : StorageFault → String
  | notFound path => "File not found: " ++ path.display
  | denied path => "Permission denied: " ++ path.display
  | failed text => "I/O error: " ++ text

end StorageFault

end RobotJobs
