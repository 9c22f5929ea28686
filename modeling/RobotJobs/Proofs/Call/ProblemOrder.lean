import RobotJobs.Proofs.Call.Problems

/-!
# The problems of an analysis in order

The problems recorded between two traversals are those of the names visited since, in the
order in which these names occur first in the tree (`Traversal.Lays.jobs_problems`).  So an
analysis has one problem for every job in it that cannot be loaded, none for any other job,
and its problems stand in the order of the tree (`FileView.jobs_problems_analyze`).  Whether
a job has no file or has one that cannot be read is told by its name, by the listing and by
what comes out of reading the file (`FileView.answer_eq_error_iff`).
-/

namespace RobotJobs

namespace CallAnswer

variable {answer : CallAnswer} {job : JobName}

instance (answer : CallAnswer) (job : JobName) : Decidable (∃ p, answer job = .error p) :=
  decidable_of_iff ((answer.problem? job).isSome = true) (by
    simp only [Option.isSome_iff_exists, problem?_eq_some_iff])

/-- The jobs of the problems with given names are the names that have one. -/
theorem map_job_filterMap (hjob : ∀ job p, answer job = .error p → p.job = job)
    (names : List JobName) :
  (names.filterMap answer.problem?).map Problem.job
    = names.filter fun name => ∃ p, answer name = .error p
  := by
  induction names with
  | nil => rfl
  | cons name names ih =>
    cases hanswer : answer name with
    | error p => simp [problem?, hanswer, hjob name p hanswer, ← ih]
    | ok jobs => simp [problem?, hanswer, ← ih]

end CallAnswer

namespace Traversal

variable {answer : CallAnswer} {t t' : Traversal} {nodes : List (JobName × Calls)}
  {job : JobName}

/-- What was recorded since is about the names visited since that have a problem, in the
order of their first occurrences. -/
theorem Lays.jobs_problems (h : Lays answer t nodes t') (hproblems : t.problems = [])
    (hjob : ∀ job p, answer job = .error p → p.job = job) :
  t'.problems.map Problem.job
    = (JobName.newAfter t.visited (nodes.map Prod.fst)).filter
        fun name => ∃ p, answer name = .error p
  := by
  rw [h.problems, hproblems, List.nil_append, CallAnswer.map_job_filterMap hjob]

/-- There is one problem for every name visited since that has one, and none for any other
name. -/
theorem Lays.count_problems (h : Lays answer t nodes t') (hproblems : t.problems = [])
    (hvisited : t.visited = []) (hjob : ∀ job p, answer job = .error p → p.job = job) :
  (t'.problems.map Problem.job).count job
    = if job ∈ t'.visited ∧ ∃ p, answer job = .error p then 1 else 0
  := by
  rw [h.jobs_problems hproblems hjob, List.Nodup.count (JobName.nodup_newAfter.filter _)]
  congr 1
  rw [List.mem_filter, JobName.mem_newAfter, h.visited, hvisited]
  simp

end Traversal

namespace FileView

variable {view : FileView} {folder : JobFolder} {job : JobName} {p : Problem}

/-- A job has no file: its name leads out of the folder, no file of the folder is listed
under the name of the job's file, or there is nothing to read. -/
def IsAbsent (view : FileView) (folder : JobFolder) (job : JobName) : Prop :=
  ('/' ∈ job.text.toList ∨ '\\' ∈ job.text.toList)
    ∨ (∃ paths, view.list folder.path = .ok paths ∧
        ∀ path ∈ paths, path.fileNameText? ≠ some (folder.fileName job))
    ∨ ∃ fault, view.read (folder.jobPath job) = .error fault ∧ fault.isNotFound = true

theorem isAbsent_iff :
  view.IsAbsent folder job
    ↔ job.isFileStem = false
      ∨ isListed (view.fileNames? folder.path) (folder.fileName job) = false
      ∨ ∃ fault, view.read (folder.jobPath job) = .error fault ∧ fault.isNotFound = true
  := by
  have hstem := not_congr (@JobName.isFileStem_iff job)
  have hlisted := not_congr (@isListed_fileNames_iff view folder.path (folder.fileName job))
  rw [Bool.not_eq_true] at hstem hlisted
  rw [hstem, hlisted, IsAbsent]
  grind

/-- An analysis is told that a job is missing if the job has no file, and that its file is
unreadable, with the reason, if reading it fails in another way. -/
theorem answer_eq_error_iff :
  view.answer folder job = .error p
    ↔ (view.IsAbsent folder job ∧ p = .notFound job (folder.fileName job) folder.path)
      ∨ ¬ view.IsAbsent folder job ∧ ∃ fault,
        view.read (folder.jobPath job) = .error fault
          ∧ p = .unreadable job (folder.jobPath job) fault.message
  := by
  rw [isAbsent_iff, answer, callsOf]
  cases hstem : job.isFileStem with
  | false => simp [JobFolder.missing, @eq_comm _ p]
  | true =>
    cases hlisted : isListed (view.fileNames? folder.path) (folder.fileName job) with
    | false => simp [JobFolder.missing, @eq_comm _ p]
    | true =>
      cases hread : view.read (folder.jobPath job) with
      | ok bytes => simp
      | error fault =>
        cases hfault : fault.isNotFound with
        | false => simp [JobFolder.refused, hfault, @eq_comm _ p]
        | true => simp [JobFolder.refused, JobFolder.missing, hfault, @eq_comm _ p]

instance (view : FileView) (folder : JobFolder) (job : JobName) :
    Decidable (∃ bytes, view.Loads folder job bytes) :=
  decidable_of_iff (¬ ∃ p, view.answer folder job = .error p) (by
    rw [exists_answer_error_iff, not_not])

/-- The problems of an analysis are about the jobs in it that cannot be loaded, each of them
once and in the order of their first occurrences in the tree.  A problem says that the job
is missing if the job has no file, and otherwise that its file is unreadable, with the
reason. -/
theorem jobs_problems_analyze (view : FileView) (folder : JobFolder) (root : JobName) :
  (view.analyze folder root).problems.map Problem.job
      = ((view.analyze folder root).tree.nodes.map Prod.fst).eraseDups.filter
          (fun job => ¬ ∃ bytes, view.Loads folder job bytes)
    ∧ (∀ job, ((view.analyze folder root).problems.map Problem.job).count job
      = if job ∈ (view.analyze folder root).reachable
          ∧ ¬ ∃ bytes, view.Loads folder job bytes then 1 else 0)
    ∧ ∀ p ∈ (view.analyze folder root).problems,
      (view.IsAbsent folder p.job ∧ p = .notFound p.job (folder.fileName p.job) folder.path)
        ∨ ¬ view.IsAbsent folder p.job ∧ ∃ fault,
          view.read (folder.jobPath p.job) = .error fault
            ∧ p = .unreadable p.job (folder.jobPath p.job) fault.message
  := by
  have hlays := lays_analyze view folder root
  have hjob : ∀ job p, view.answer folder job = .error p → p.job = job :=
    fun _ _ => job_of_answer_error
  refine ⟨?_, ?_, ?_⟩
  · simp only [← exists_answer_error_iff, ← JobName.nil_newAfter]
    apply hlays.jobs_problems rfl hjob
  · intro job
    simp only [mem_reachable_iff_visited, ← exists_answer_error_iff]
    apply hlays.count_problems rfl rfl hjob
  · intro p hp
    obtain ⟨job, -, hanswer⟩ := mem_problems_analyze.1 hp
    rw [job_of_answer_error hanswer]
    apply answer_eq_error_iff.1 hanswer

end FileView

end RobotJobs
