import Mathlib.Data.List.Forall2
import RobotJobs.Proofs.Sweep.InMemory

/-!
# Dry runs

A dry run and a real run that start from the same store go through the same files.  What a
real run deletes on its way changes nothing for a file that comes later: its fate can be
told from the store before the run.  So each outcome of the dry run foretells the one of the
real run about the same file (`Memory.sweep_foretells`).
-/

namespace RobotJobs

namespace Outcome

/-- What a dry run says of a file and what a real run comes to.  Both keep the file, or the
first one would delete it and the second one does so unless the file is locked. -/
inductive Foretells (m : Memory) : Outcome → Outcome → Prop
  | kept (fileName : String) (path : Path) :
    Foretells m ⟨fileName, path, .kept⟩ ⟨fileName, path, .kept⟩
  | deleted (fileName : String) (path : Path) (h : path.place ∉ m.locked) :
    Foretells m ⟨fileName, path, .wouldDelete⟩ ⟨fileName, path, .deleted⟩
  | failed (fileName : String) (path : Path) (h : path.place ∈ m.locked) :
    Foretells m ⟨fileName, path, .wouldDelete⟩
      ⟨fileName, path, .failed (StorageFault.denied path).message⟩

/-- A dry run counts as deleted what a real run deletes or fails to delete. -/
theorem deletedCount_of_foretells {m : Memory} {dry real : List Outcome}
    (h : List.Forall₂ (Foretells m) dry real) :
  deletedCount dry = deletedCount real + failedCount real
  := by
  induction h with
  | nil => rfl
  | cons hfile _ ih =>
    simp only [deletedCount, failedCount, List.countP_cons] at ih ⊢
    cases hfile with
    | kept fileName path => simpa using ih
    | deleted fileName path hlocked =>
      simp
      omega
    | failed fileName path hlocked =>
      simp
      omega

end Outcome

namespace Memory

variable {m : Memory} {folder : JobFolder} {keep : List JobName}

/-- The fate of a file in a dry run foretells the one in a real run. -/
theorem foretells_outcomeOf (e : SweepEntry) :
  Outcome.Foretells m (m.outcomeOf keep true e) (m.outcomeOf keep false e)
  := by
  unfold outcomeOf
  rw [fateOf_eq, fateOf_eq]
  by_cases hkeep : e.job ∈ keep
  · simp only [hkeep, if_true]
    apply Outcome.Foretells.kept
  · by_cases hlocked : e.path.place ∈ m.locked
    · simp only [hkeep, hlocked, if_true, if_false, Bool.false_eq_true]
      apply Outcome.Foretells.failed _ _ hlocked
    · simp only [hkeep, hlocked, if_true, if_false, Bool.false_eq_true]
      apply Outcome.Foretells.deleted _ _ hlocked

theorem fateOf_dryRun_ne_deleted (job : JobName) (path : Path) :
  m.fateOf keep true job path ≠ .deleted
  := by
  rw [fateOf_eq]
  by_cases hkeep : job ∈ keep
  · simp [hkeep]
  · simp [hkeep]

theorem deletedPlaces_dryRun (plan : List SweepEntry) :
  m.deletedPlaces keep true plan = []
  := by
  rw [deletedPlaces, List.map_eq_nil_iff, List.filter_eq_nil_iff]
  intro e _
  simpa using fateOf_dryRun_ne_deleted e.job e.path

/-- A dry run and a real run of the same sweep both fail with the same error, and then
nothing changes, or both succeed.  Then the dry run changes nothing, and its outcomes
foretell those of the real run, one by one; so it counts as deleted what the real run
deletes or fails to delete. -/
theorem sweep_foretells (m : Memory) (folder : JobFolder) (keep : List JobName) :
  (∃ e, m.sweep folder keep true = (.error e, m) ∧ m.sweep folder keep false = (.error e, m))
    ∨ ∃ dry real m', m.sweep folder keep true = (.ok dry, m)
      ∧ m.sweep folder keep false = (.ok real, m')
      ∧ List.Forall₂ (Outcome.Foretells m) dry real
      ∧ Outcome.deletedCount dry = Outcome.deletedCount real + Outcome.failedCount real
  := by
  cases hfolder : m.isFolder folder.path with
  | false =>
    apply Or.inl
    exact ⟨_, sweep_of_not_isFolder hfolder, sweep_of_not_isFolder hfolder⟩
  | true =>
    apply Or.inr
    have hforetells : List.Forall₂ (Outcome.Foretells m)
        ((m.plan folder).map (m.outcomeOf keep true))
        ((m.plan folder).map (m.outcomeOf keep false)) := by
      apply List.forall₂_map_left_iff.2
      apply List.forall₂_map_right_iff.2
      apply List.forall₂_same.2
      intro e _
      apply foretells_outcomeOf
    have hdry : m.sweep folder keep true
        = (.ok ((m.plan folder).map (m.outcomeOf keep true)), m) := by
      rw [sweep_of_isFolder hfolder, deletedPlaces_dryRun, without_nil]
    exact ⟨_, _, _, hdry, sweep_of_isFolder hfolder, hforetells,
      Outcome.deletedCount_of_foretells hforetells⟩

end Memory

end RobotJobs
