import RobotJobs.Report.Tag
import RobotJobs.Sweep

/-!
# The report of a sweep

A sweep is announced, reported with one line for each job file in the order of the
folder, and summed up.
-/

namespace RobotJobs

/-- The announcement of a sweep. -/
def sweepHeader (extension : String) (dryRun : Bool) : String :=
  if dryRun then "\nChecking for unused ." ++ extension ++ " files (dry run)...\n"
  else "\nCleaning up unused ." ++ extension ++ " files...\n"

namespace Outcome

/-- The line for one file. -/
def reportLine (o : Outcome) (paint : Paint) : String :=
  match o.fate with
  | .kept => Tag.kept.line o.fileName paint
  | .deleted => Tag.deleted.line o.fileName paint
  | .wouldDelete => Tag.wouldDelete.line o.fileName paint
  | .failed reason =>
    Tag.error.line ("Could not delete " ++ o.fileName ++ ": " ++ reason) paint

/-- One line for each file. -/
def reportLines (outcomes : List Outcome) (paint : Paint) : String :=
  unlines (outcomes.map (·.reportLine paint))

/-- The counts of a sweep; failures are mentioned if there are any. -/
def summary (outcomes : List Outcome) (dryRun : Bool) (paint : Paint) : String :=
  if outcomes.isEmpty then aside "No job files found." paint ++ "\n"
  else
    let verb := if dryRun then "would be deleted" else "deleted"
    let failures :=
      if allSucceeded outcomes then ""
      else ", " ++ toString (failedCount outcomes) ++ " failed"
    "\n" ++ aside (toString (keptCount outcomes) ++ " kept, " ++
      toString (deletedCount outcomes) ++ " " ++ verb ++ failures) paint ++ "\n"

end Outcome

/-- The whole report of a sweep. -/
def sweepReport (extension : String) (outcomes : List Outcome) (dryRun : Bool)
    (paint : Paint) : String :=
  sweepHeader extension dryRun ++ Outcome.reportLines outcomes paint ++
    Outcome.summary outcomes dryRun paint

end RobotJobs
