import RobotJobs.Proofs.Call.Reachable

/-!
# The problems of an analysis

A problem is recorded when a job is entered for the first time and has one, and never
otherwise.  So the problems recorded on the way from one traversal to a later one are
those of the names visited on the way (`Traversal.Lays.accounts`), and the problems of an
analysis are those of the names in it (`mem_problems_analyze`).
-/

namespace RobotJobs

namespace Traversal

/-- A later traversal accounts for an earlier one: what was visited stays visited, and the
problems recorded since are those of the names visited since. -/
structure Accounts (answer : CallAnswer) (t t' : Traversal) : Prop where
  visited : ∀ name ∈ t.visited, name ∈ t'.visited
  problems : ∀ p, p ∈ t'.problems
    ↔ p ∈ t.problems ∨ ∃ name ∈ t'.visited, name ∉ t.visited ∧ answer name = .error p

/-- Between two traversals the problems of the names visited since are recorded. -/
theorem Lays.accounts {answer : CallAnswer} {t t' : Traversal}
    {nodes : List (JobName × Calls)} (h : Lays answer t nodes t') :
  Accounts answer t t'
  := by
  constructor
  · intro name hname
    apply (h.visited name).2 (.inl hname)
  · intro p
    rw [h.problems, List.mem_append, List.mem_filterMap]
    apply or_congr_right
    apply exists_congr
    intro name
    rw [JobName.mem_newAfter, h.visited, CallAnswer.problem?_eq_some_iff]
    grind

end Traversal

namespace FileView

variable {view : FileView} {folder : JobFolder} {job root : JobName} {p : Problem}

/-- A problem is about the job that has it. -/
theorem job_of_callsOf_error {listing : Option (List String)}
    (h : view.callsOf folder listing job = .error p) :
  p.job = job
  := by
  unfold callsOf at h
  split at h
  · cases h
    rfl
  · split at h
    · cases h
      rfl
    · split at h
      · cases h
      · cases h
        unfold JobFolder.refused
        split
        · rfl
        · rfl

theorem job_of_answer_error (h : view.answer folder job = .error p) :
  p.job = job
  := job_of_callsOf_error h

/-- The problems of an analysis are those of the names in it. -/
theorem mem_problems_analyze :
  p ∈ (view.analyze folder root).problems
    ↔ ∃ name ∈ (view.analyze folder root).reachable, view.answer folder name = .error p
  := by
  have haccounts := (lays_analyze view folder root).accounts.problems p
  constructor
  · intro h
    rcases haccounts.1 h with h | ⟨name, hname, -, hanswer⟩
    · cases h
    · exact ⟨name, mem_reachable_iff_visited.2 hname, hanswer⟩
  · rintro ⟨name, hname, hanswer⟩
    apply haccounts.2
    exact .inr ⟨name, mem_reachable_iff_visited.1 hname, not_mem_visited_startTraversal, hanswer⟩

/-- An analysis has a problem with a job exactly if the job is in it and cannot be
loaded. -/
theorem exists_problem_iff (view : FileView) (folder : JobFolder) (root job : JobName) :
  (∃ p ∈ (view.analyze folder root).problems, p.job = job)
    ↔ job ∈ (view.analyze folder root).reachable ∧ ¬ ∃ bytes, view.Loads folder job bytes
  := by
  rw [← exists_answer_error_iff]
  constructor
  · rintro ⟨p, hp, rfl⟩
    obtain ⟨name, hname, hanswer⟩ := mem_problems_analyze.1 hp
    rw [job_of_answer_error hanswer]
    exact ⟨hname, p, hanswer⟩
  · rintro ⟨hjob, p, hanswer⟩
    exact ⟨p, mem_problems_analyze.2 ⟨job, hjob, hanswer⟩, job_of_answer_error hanswer⟩

end FileView

end RobotJobs
