import RobotJobs.Call.Tree

/-!
# The nodes of a call tree

`Calls.nodes` lists every call with the calls below it, each before the calls below it; it
has the names of the calls at all levels (`Calls.map_fst_nodes`).  A call that is put to
others is refused if its job is called already, and stands at the end otherwise; so the
called jobs are the first occurrences among those put together
(`Calls.eraseDups_jobs_insert`).
-/

namespace RobotJobs

namespace Calls

variable {calls below : Calls} {name job : JobName} {jobs : List JobName}

/-- The calls at all levels with the calls below them, each call before the calls below
it. -/
def nodes : Calls → List (JobName × Calls)
  | none => []
  | call job below others => (job, below) :: (below.nodes ++ others.nodes)

theorem nodes_append (calls : Calls) (job : JobName) (below : Calls) :
  (calls.append job below).nodes = calls.nodes ++ (job, below) :: below.nodes
  := by
  induction calls with
  | none =>
    rw [append, nodes]
    simp [nodes]
  | call job' below' others _ ih =>
    rw [append, nodes, nodes, ih]
    simp

theorem map_fst_nodes (calls : Calls) :
  calls.nodes.map Prod.fst = calls.names
  := by
  induction calls with
  | none => rfl
  | call job below others ihb iho => simp [nodes, names, ihb, iho]

theorem jobs_eq_nil_iff :
  calls.jobs = [] ↔ calls = none
  := by
  cases calls with
  | none => simp [jobs]
  | call job below others => simp [jobs]

theorem insert_of_mem (h : job ∈ calls.jobs) :
  calls.insert job below = calls
  := by
  simp [insert, contains, h]

theorem insert_of_not_mem (h : job ∉ calls.jobs) :
  calls.insert job below = calls.append job below
  := by
  simp [insert, contains, h]

theorem mem_jobs_insert :
  name ∈ (calls.insert job below).jobs ↔ name ∈ calls.jobs ∨ name = job
  := by
  by_cases hjob : job ∈ calls.jobs
  · rw [insert_of_mem hjob]
    constructor
    · exact .inl
    · rintro (h | rfl)
      · exact h
      · exact hjob
  · rw [insert_of_not_mem hjob, jobs_append]
    simp

theorem nodup_jobs_insert (h : calls.jobs.Nodup) :
  (calls.insert job below).jobs.Nodup
  := by
  by_cases hjob : job ∈ calls.jobs
  · rw [insert_of_mem hjob]
    apply h
  · rw [insert_of_not_mem hjob, jobs_append]
    grind

/-- The first occurrences among the called jobs and further ones do not change when the
first of the further ones is called. -/
theorem eraseDups_jobs_insert :
  ((calls.insert job below).jobs ++ jobs).eraseDups = (calls.jobs ++ job :: jobs).eraseDups
  := by
  by_cases hjob : job ∈ calls.jobs
  · rw [insert_of_mem hjob, List.eraseDups_append, List.eraseDups_append]
    simp [List.removeAll, hjob]
  · rw [insert_of_not_mem hjob, jobs_append]
    simp

end Calls

/-- The nodes of a tree, the root first. -/
def CallTree.nodes (tree : CallTree) : List (JobName × Calls) :=
  (tree.root, tree.calls) :: tree.calls.nodes

end RobotJobs
