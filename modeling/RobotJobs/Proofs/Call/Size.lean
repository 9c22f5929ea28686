import Mathlib.Algebra.Order.BigOperators.Group.List
import Mathlib.Algebra.Order.Ring.Nat
import RobotJobs.Proofs.Call.ProblemOrder

/-!
# The size of an analysis

Every call in a tree is a job called by one node, the root included, so what is counted over
the calls can be counted over the nodes (`Calls.sum_length_jobs_nodes`), and a chain of calls
takes a node that calls something for every step (`Calls.depth_le_sum_nodes`).  In an expanded
tree only the first node of a name calls anything, so what is counted over the nodes can be
counted over the different names (`CallAnswer.Expanded.sum_nodes`).  For an analysis these are
the jobs that can be loaded: there is one call for each different reference in the file of one
of these jobs, and no longer chain of calls than there are such jobs (`FileView.size_analyze`).
-/

namespace RobotJobs

/-! ### Counting over nodes -/

namespace Calls

/-- Every call is one of the jobs called by a node. -/
theorem sum_length_jobs_nodes (calls : Calls) :
  calls.jobs.length + (calls.nodes.map fun node => node.2.jobs.length).sum = calls.nodeCount
  := by
  induction calls with
  | none => rfl
  | call job below others ihBelow ihOthers =>
    simp only [jobs, nodes, nodeCount, List.length_cons, List.map_cons, List.map_append,
      List.sum_cons, List.sum_append]
    omega

/-- On a chain of calls every node but the last calls something. -/
theorem depth_le_sum_nodes (calls : Calls) :
  calls.depth ≤ min 1 calls.jobs.length
    + (calls.nodes.map fun node => min 1 node.2.jobs.length).sum
  := by
  induction calls with
  | none => rfl
  | call job below others ihBelow ihOthers =>
    simp only [depth, jobs, nodes, List.length_cons, List.map_cons, List.map_append,
      List.sum_cons, List.sum_append]
    omega

end Calls

namespace CallAnswer

variable {answer : CallAnswer} {before : List JobName} {nodes : List (JobName × Calls)}
  {job : JobName}

theorem expansion_of_not_mem (h : job ∉ before) :
  answer.expansion before job = answer.expansion [] job
  := by
  rw [expansion, expansion, if_neg h, if_neg List.not_mem_nil]

/-- What is counted over the called jobs of nodes can be counted over the new names among
them, if nothing is counted where nothing is called. -/
theorem Expanded.sum_nodes (h : answer.Expanded before nodes) (count : List JobName → Nat)
    (hcount : count [] = 0) :
  (nodes.map fun node => count node.2.jobs).sum
    = ((JobName.newAfter before (nodes.map Prod.fst)).map
        fun job => count (answer.expansion [] job)).sum
  := by
  induction nodes generalizing before with
  | nil => rfl
  | cons node nodes ih =>
    obtain ⟨job, below⟩ := node
    obtain ⟨hbelow, hnodes⟩ := h
    simp only [List.map_cons, List.sum_cons, ih hnodes, hbelow]
    by_cases hjob : job ∈ before
    · have hsame : ∀ name, name ∈ before ++ [job] ↔ name ∈ before := by
        grind
      rw [expansion_of_mem hjob, hcount, Nat.zero_add, JobName.newAfter_cons_of_mem hjob,
        JobName.newAfter_congr hsame]
    · have hsame : ∀ name, name ∈ before ++ [job] ↔ name ∈ job :: before := by
        grind
      rw [expansion_of_not_mem hjob, JobName.newAfter_cons_of_not_mem hjob,
        JobName.newAfter_congr hsame, List.map_cons, List.sum_cons]

end CallAnswer

namespace FileView

variable {view : FileView} {folder : JobFolder} {job root : JobName}

/-- The jobs in the analysis of a job that can be loaded, in order. -/
def loadedJobs (view : FileView) (folder : JobFolder) (root : JobName) : List JobName :=
  (view.analyze folder root).reachable.filter fun job => ∃ bytes, view.Loads folder job bytes

/-- The different jobs that the file of a job refers to, none if the file cannot be read. -/
def calledJobs (view : FileView) (folder : JobFolder) (job : JobName) : List JobName :=
  match view.read (folder.jobPath job) with
  | .ok bytes => (Reference.inBytes folder.marker bytes).eraseDups
  | .error _ => []

theorem expansion_of_loads (h : ∃ bytes, view.Loads folder job bytes) :
  (view.answer folder).expansion [] job = view.calledJobs folder job
  := by
  obtain ⟨bytes, hloads⟩ := h
  have hanswer := answer_eq_ok_iff.2 ⟨bytes, hloads, rfl⟩
  rw [CallAnswer.expansion_of_ok List.not_mem_nil hanswer, calledJobs, hloads.read]

theorem expansion_of_not_loads (h : ¬ ∃ bytes, view.Loads folder job bytes) :
  (view.answer folder).expansion [] job = []
  := by
  obtain ⟨p, hanswer⟩ := exists_answer_error_iff.2 h
  exact CallAnswer.expansion_of_error hanswer

/-- The names in an analysis are the different names of its nodes. -/
theorem reachable_perm (view : FileView) (folder : JobFolder) (root : JobName) :
  (view.analyze folder root).reachable.Perm
    (JobName.newAfter [] ((view.analyze folder root).tree.nodes.map Prod.fst))
  := by
  rw [JobName.nil_newAfter, CallTree.nodes, List.map_cons, Calls.map_fst_nodes]
  apply List.mergeSort_perm

theorem nodup_reachable (view : FileView) (folder : JobFolder) (root : JobName) :
  (view.analyze folder root).reachable.Nodup
  := (reachable_perm view folder root).nodup_iff.2 JobName.nodup_newAfter

/-- What is counted over the called jobs of the nodes of an analysis can be counted over the
jobs that can be loaded, if nothing is counted where nothing is called. -/
theorem sum_nodes_analyze (count : List JobName → Nat) (hcount : count [] = 0) :
  ((view.analyze folder root).tree.nodes.map fun node => count node.2.jobs).sum
    = ((view.loadedJobs folder root).map fun job => count (view.calledJobs folder job)).sum
  := by
  have hexpanded : (view.answer folder).Expanded [] (view.analyze folder root).tree.nodes :=
    (lays_analyze view folder root).expanded
  have hloaded : ((view.loadedJobs folder root).map fun job =>
        count ((view.answer folder).expansion [] job))
      = (view.loadedJobs folder root).map fun job => count (view.calledJobs folder job) := by
    apply List.map_congr_left
    intro job hjob
    rw [expansion_of_loads (by simpa using (List.mem_filter.1 hjob).2)]
  have hothers : (((view.analyze folder root).reachable.filter
        fun job => ¬ ∃ bytes, view.Loads folder job bytes).map
          fun job => count ((view.answer folder).expansion [] job)).sum = 0 := by
    apply List.sum_eq_zero
    intro n hn
    obtain ⟨job, hjob, rfl⟩ := List.mem_map.1 hn
    rw [expansion_of_not_loads (by simpa using (List.mem_filter.1 hjob).2), hcount]
  rw [hexpanded.sum_nodes count hcount, ← ((reachable_perm view folder root).map _).sum_eq,
    ← List.sum_map_filter_add_sum_map_filter_not fun job => ∃ bytes, view.Loads folder job bytes,
    hothers, Nat.add_zero, ← loadedJobs, hloaded]

/-- The problems of an analysis are as many as the jobs in it that cannot be loaded. -/
theorem length_problems_analyze (view : FileView) (folder : JobFolder) (root : JobName) :
  (view.analyze folder root).problems.length + (view.loadedJobs folder root).length
    = (view.analyze folder root).reachable.length
  := by
  have hjobs : (view.analyze folder root).problems.map Problem.job
      = (JobName.newAfter [] ((view.analyze folder root).tree.nodes.map Prod.fst)).filter
        fun job => ∃ p, view.answer folder job = .error p :=
    (lays_analyze view folder root).jobs_problems rfl (fun _ _ => job_of_answer_error)
  have hlength := congrArg List.length hjobs
  rw [List.length_map, ← ((reachable_perm view folder root).filter _).length_eq] at hlength
  simp only [exists_answer_error_iff] at hlength
  have hsplit := List.length_eq_length_filter_add (l := (view.analyze folder root).reachable)
    fun job => decide (∃ bytes, view.Loads folder job bytes)
  rw [hlength, loadedJobs, hsplit, Nat.add_comm]
  simp only [decide_not]

/-- There is one call for each different reference in the file of a job that can be loaded. -/
theorem nodeCount_analyze (view : FileView) (folder : JobFolder) (root : JobName) :
  (view.analyze folder root).tree.calls.nodeCount
    = ((view.loadedJobs folder root).map fun job => (view.calledJobs folder job).length).sum
  := by
  rw [← sum_nodes_analyze List.length rfl, CallTree.nodes, List.map_cons, List.sum_cons,
    Calls.sum_length_jobs_nodes]

/-- A chain of calls is no longer than there are jobs that can be loaded. -/
theorem depth_analyze_le (view : FileView) (folder : JobFolder) (root : JobName) :
  (view.analyze folder root).tree.calls.depth ≤ (view.loadedJobs folder root).length
  := by
  have hnodes := @sum_nodes_analyze view folder root (fun jobs => min 1 jobs.length) rfl
  calc (view.analyze folder root).tree.calls.depth
      ≤ ((view.analyze folder root).tree.nodes.map fun node => min 1 node.2.jobs.length).sum :=
        Calls.depth_le_sum_nodes _
    _ = ((view.loadedJobs folder root).map
          fun job => min 1 (view.calledJobs folder job).length).sum := hnodes
    _ ≤ (view.loadedJobs folder root).length := by
        apply (List.sum_le_card_nsmul _ 1 _).trans
        · rw [List.length_map, nsmul_one, Nat.cast_id]
        · intro n hn
          obtain ⟨job, -, rfl⟩ := List.mem_map.1 hn
          apply Nat.min_le_left

/-- Every name in an analysis but the starting job is called. -/
theorem length_reachable_le (view : FileView) (folder : JobFolder) (root : JobName) :
  (view.analyze folder root).reachable.length
    ≤ (view.analyze folder root).tree.calls.nodeCount + 1
  := by
  calc (view.analyze folder root).reachable.length
      = (JobName.newAfter [] ((view.analyze folder root).tree.nodes.map Prod.fst)).length :=
        (reachable_perm view folder root).length_eq
    _ ≤ ((view.analyze folder root).tree.nodes.map Prod.fst).length := by
        apply (List.subperm_of_subset JobName.nodup_newAfter _).length_le
        exact fun _ hname => (JobName.mem_newAfter.1 hname).1
    _ = (view.analyze folder root).tree.calls.nodeCount + 1 := by
        rw [CallTree.nodes, List.map_cons, Calls.map_fst_nodes, List.length_cons,
          Calls.length_names]

/-- The size of an analysis.  The names in it are all different.  The tree has one call for
each different reference in the file of a job that can be loaded, and a chain of calls is no
longer than there are such jobs.  There is a problem for each of the other jobs.  And there are
at most as many names as calls, besides the starting job. -/
theorem size_analyze (view : FileView) (folder : JobFolder) (root : JobName) :
  (view.analyze folder root).reachable.Nodup
    ∧ (view.analyze folder root).tree.calls.nodeCount
      = ((view.loadedJobs folder root).map fun job => (view.calledJobs folder job).length).sum
    ∧ (view.analyze folder root).tree.calls.depth ≤ (view.loadedJobs folder root).length
    ∧ (view.analyze folder root).problems.length + (view.loadedJobs folder root).length
      = (view.analyze folder root).reachable.length
    ∧ (view.analyze folder root).reachable.length
      ≤ (view.analyze folder root).tree.calls.nodeCount + 1
  := by
  refine ⟨?_, ?_, ?_, ?_, ?_⟩
  · apply nodup_reachable
  · apply nodeCount_analyze
  · apply depth_analyze_le
  · apply length_problems_analyze
  · apply length_reachable_le

end FileView

end RobotJobs
