import RobotJobs.Job.Name

/-!
# Call trees

`Calls` is what one job calls: job names in order, each with the calls below it.  Names
at one level differ as long as calls are put together with `insert`, which refuses a
name that is already there.  A `CallTree` is a job with its calls.

`names` lists every name at every level, from top to bottom as the tree is drawn.
-/

namespace RobotJobs

/-- The calls of a job, in order: the first called job, the calls below it, and the
other calls of the same job. -/
inductive Calls where
  | none
  | call (job : JobName) (below : Calls) (others : Calls)
  deriving DecidableEq

namespace Calls

/-- The called jobs with the calls below them. -/
def entries : Calls → List (JobName × Calls)
  | none => []
  | call job below others => (job, below) :: others.entries

/-- The called jobs. -/
def jobs : Calls → List JobName
  | none => []
  | call job _ others => job :: others.jobs

/-- The calls below a called job. -/
def find? (name : JobName) : Calls → Option Calls
  | none => Option.none
  | call job below others => if job = name then some below else others.find? name

/-- Whether a job is called. -/
def contains (name : JobName) (calls : Calls) : Bool :=
  calls.jobs.contains name

/-- The calls with one more at the end. -/
def append (calls : Calls) (name : JobName) (below : Calls) : Calls :=
  match calls with
  | none => call name below none
  | call job below' others => call job below' (others.append name below)

/-- The calls with one more at the end, unless the job is called already. -/
def insert (calls : Calls) (name : JobName) (below : Calls) : Calls :=
  if calls.contains name then calls else calls.append name below

/-- Whether a job is not called yet, and the calls with it at the end if so. -/
def insertIfNew (calls : Calls) (name : JobName) (below : Calls) : Bool × Calls :=
  if calls.contains name then (false, calls) else (true, calls.append name below)

/-- The number of called jobs. -/
def size : Calls → Nat
  | none => 0
  | call _ _ others => others.size + 1

/-- The number of calls at all levels. -/
def nodeCount : Calls → Nat
  | none => 0
  | call _ below others => 1 + below.nodeCount + others.nodeCount

/-- The length of the longest chain of calls. -/
def depth : Calls → Nat
  | none => 0
  | call _ below others => max (1 + below.depth) others.depth

/-- The names at all levels, each call before the calls below it. -/
def names : Calls → List JobName
  | none => []
  | call job below others => job :: (below.names ++ others.names)

/-- The names at all levels with their level, each call before the calls below it. -/
def preorder (level : Nat) : Calls → List (Nat × JobName)
  | none => []
  | call job below others => (level, job) :: (below.preorder (level + 1) ++ others.preorder level)

/-- The different names at all levels, in order. -/
def nameSet (calls : Calls) : List JobName :=
  JobName.sorted calls.names

theorem length_names (calls : Calls) :
  calls.names.length = calls.nodeCount
  := by
  induction calls with
  | none => rfl
  | call job below others ihb iho => simp [names, nodeCount, ihb, iho]; omega

theorem map_fst_entries (calls : Calls) :
  calls.entries.map Prod.fst = calls.jobs
  := by
  induction calls with
  | none => rfl
  | call job below others _ ih => simp [entries, jobs, ih]

theorem entries_append (calls : Calls) (name : JobName) (below : Calls) :
  (calls.append name below).entries = calls.entries ++ [(name, below)]
  := by
  induction calls with
  | none => rfl
  | call job below' others _ ih => simp [append, entries, ih]

theorem jobs_append (calls : Calls) (name : JobName) (below : Calls) :
  (calls.append name below).jobs = calls.jobs ++ [name]
  := by
  rw [← map_fst_entries, entries_append]
  simp [map_fst_entries]

end Calls

/-- A job with its calls. -/
structure CallTree where
  root : JobName
  calls : Calls

namespace CallTree

/-- The different names in a tree, the root included, in order. -/
def reachable (tree : CallTree) : List JobName :=
  JobName.sorted (tree.root :: tree.calls.names)

/-- The number of nodes of a tree, the root included. -/
def nodeCount (tree : CallTree) : Nat :=
  tree.calls.nodeCount + 1

end CallTree

end RobotJobs
