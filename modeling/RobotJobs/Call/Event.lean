import RobotJobs.Call.Problem

/-!
# Events of a traversal

What a traversal meets on its way is kept in the order in which it was met: a reference that
is followed, a job that was visited before, and a problem with the file of a job.
-/

namespace RobotJobs

/-- What a traversal meets. -/
inductive CallEvent where
  | reference (caller called : JobName)
  | again (job : JobName)
  | problem (p : Problem)
  deriving DecidableEq

/-- The problem that an event is, if it is one. -/
def CallEvent.problem? : CallEvent → Option Problem
  | problem p => some p
  | _ => none

end RobotJobs
