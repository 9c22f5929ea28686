/-!
# Job names

The name of a job is any text that may follow a marker, the empty text included.  It is
the stem of the name of the job's file, provided that it holds no slash of either kind:
a name with one would lead out of the job folder.
-/

namespace RobotJobs

/-- The name of a job. -/
structure JobName where
  text : String
  deriving DecidableEq

namespace JobName

/-- Whether a file of the job folder can be named after the job. -/
def isFileStem (job : JobName) : Bool :=
  !(job.text.toList.contains '/' || job.text.toList.contains '\\')

/-- The name of the job's file. -/
def fileName (job : JobName) (extension : String) : String :=
  job.text ++ "." ++ extension

/-- The order of job names, by code points. -/
def le (a b : JobName) : Bool :=
  decide (a.text ≤ b.text)

/-- Job names in order, each of them once. -/
def sorted (names : List JobName) : List JobName :=
  names.eraseDups.mergeSort le

end JobName

end RobotJobs
