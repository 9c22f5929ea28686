import RobotJobs.Job.Reference
import RobotJobs.Path

/-!
# Job folders

A job folder is a path together with the extension of its job files and the marker that
begins a reference.  `jobPath` leads from a job to its file, `jobOf?` from the name of a
file back to the job.  Matching is exact: with extension `JBI`, `A.jbi` belongs to no
job.
-/

namespace RobotJobs

/-- A folder of job files that share an extension and a marker. -/
structure JobFolder where
  path : Path
  extension : String := "JBI"
  marker : String := defaultMarker

/-- An extension without the dots it begins with. -/
def withoutLeadingDots (extension : String) : String :=
  String.ofList (extension.toList.dropWhile (· == '.'))

namespace JobFolder

/-- The folder with another extension; dots before the extension do not belong to it. -/
def withExtension (folder : JobFolder) (extension : String) : JobFolder :=
  { folder with extension := withoutLeadingDots extension }

/-- The folder with another marker. -/
def withMarker (folder : JobFolder) (marker : String) : JobFolder :=
  { folder with marker }

/-- The name of a job's file. -/
def fileName (folder : JobFolder) (job : JobName) : String :=
  job.fileName folder.extension

/-- The path of a job's file. -/
def jobPath (folder : JobFolder) (job : JobName) : Path :=
  folder.path.join (Path.ofString (folder.fileName job))

/-- The job that a file name belongs to. -/
def jobOf? (folder : JobFolder) (fileName : String) : Option JobName :=
  ((Text.beforeEnd? folder.extension.toList fileName.toList).bind (Text.beforeEnd? ['.'])).map
    fun cs => ⟨String.ofList cs⟩

end JobFolder

end RobotJobs
