import RobotJobs.Job.Name
import RobotJobs.Text.Blank
import RobotJobs.Text.Ends
import RobotJobs.Text.Line
import RobotJobs.Text.Utf8

/-!
# References

A line refers to another job when it begins, blank characters aside, with the marker of
the job folder.  The job is named by the first word after the marker; a marker with
nothing after it names the job with the empty name.  Further words on the line do not
matter.
-/

namespace RobotJobs

/-- The marker of a reference, unless another one is set. -/
def defaultMarker : String := "CALL JOB:"

namespace Reference

/-- The name that a line refers to. -/
def inLine? (marker line : List Char) : Option (List Char) :=
  (Text.afterStart? marker (Text.trim line)).map Text.firstWord

/-- The job that a line refers to. -/
def jobInLine? (marker line : String) : Option JobName :=
  (inLine? marker.toList line.toList).map fun cs => ⟨String.ofList cs⟩

/-- The jobs that a text refers to, in the order of its lines. -/
def inText (marker content : List Char) : List JobName :=
  ((Text.lines content).filterMap (inLine? marker)).map fun cs => ⟨String.ofList cs⟩

/-- The jobs that the bytes of a job file refer to. -/
def inBytes (marker : String) (bytes : List UInt8) : List JobName :=
  inText marker.toList (Text.decode bytes)

end Reference

end RobotJobs
