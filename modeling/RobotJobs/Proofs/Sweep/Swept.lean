import RobotJobs.Proofs.Sweep.InMemory

/-!
# What a sweep comes to

`Memory.Swept` says of the outcomes of a sweep and of the store after it what they should
be, in terms of the store before it: which files are reported and in which order, what is
reported of each, and which files are left.  A sweep comes to that for every store, folder
and set of jobs to keep, unless the folder is not there; then nothing changes
(`sweep_exact`).
-/

namespace RobotJobs

/-- Every outcome is counted as kept, as deleted or as failed, and only once. -/
theorem Outcome.keptCount_add_deletedCount_add_failedCount (outcomes : List Outcome) :
  keptCount outcomes + deletedCount outcomes + failedCount outcomes = outcomes.length
  := by
  induction outcomes with
  | nil => rfl
  | cons o os ih =>
    simp only [keptCount, deletedCount, failedCount, List.countP_cons, List.length_cons] at ih ⊢
    cases o.fate with
    | kept => simp; omega
    | deleted => simp; omega
    | wouldDelete => simp; omega
    | failed reason => simp; omega

namespace Memory

/-- The outcomes of a sweep and the store after it are what they should be.

The files directly in the folder that are named after jobs are reported, in the order of
their places and each once.  A file is kept exactly if its job is to be kept; any other
one is reported as to be deleted in a dry run, and otherwise as deleted unless it is
locked.  The deleted files are gone, and all else is as it was. -/
structure Swept (m : Memory) (folder : JobFolder) (keep : List JobName) (dryRun : Bool)
    (outcomes : List Outcome) (m' : Memory) : Prop where
  ordered : outcomes.Pairwise fun o o' => o.path.place.Before o'.path.place
  reported : ∀ path, (∃ o ∈ outcomes, o.path = path)
    ↔ path ∈ m.files.paths ∧ path.parent? = some folder.path.place
      ∧ ∃ job, path.fileNameText? = some (folder.fileName job)
  named : ∀ o ∈ outcomes, o.path.fileNameText? = some o.fileName
  fates : ∀ o ∈ outcomes, ∀ job, folder.fileName job = o.fileName →
    o.fate = if job ∈ keep then .kept
      else if dryRun then .wouldDelete
      else if o.path.place ∈ m.locked then .failed (StorageFault.denied o.path).message
      else .deleted
  files : ∀ e, e ∈ m'.files.entries
    ↔ e ∈ m.files.entries ∧ ∀ o ∈ outcomes, o.path = e.1 → o.fate ≠ .deleted
  unchanged : m' = { m with files := m'.files }
  counts : Outcome.keptCount outcomes + Outcome.deletedCount outcomes
    + Outcome.failedCount outcomes = outcomes.length

variable {m : Memory} {folder : JobFolder} {keep : List JobName} {dryRun : Bool}

/-- A reported file is kept exactly if its job is to be kept. -/
theorem Swept.kept_iff {outcomes : List Outcome} {m' : Memory} {o : Outcome} {job : JobName}
    (h : m.Swept folder keep dryRun outcomes m') (ho : o ∈ outcomes)
    (hjob : folder.fileName job = o.fileName) :
  o.fate = .kept ↔ job ∈ keep
  := by
  rw [h.fates o ho job hjob]
  by_cases hkeep : job ∈ keep
  · simp [hkeep]
  · simp only [hkeep, if_false, iff_false]
    split
    · exact Fate.noConfusion
    · split
      · exact Fate.noConfusion
      · exact Fate.noConfusion

/-- A reported file is deleted exactly if its job is not to be kept, the sweep is not a
dry run, and the file is not locked. -/
theorem Swept.deleted_iff {outcomes : List Outcome} {m' : Memory} {o : Outcome} {job : JobName}
    (h : m.Swept folder keep dryRun outcomes m') (ho : o ∈ outcomes)
    (hjob : folder.fileName job = o.fileName) :
  o.fate = .deleted ↔ job ∉ keep ∧ dryRun = false ∧ o.path.place ∉ m.locked
  := by
  rw [h.fates o ho job hjob]
  by_cases hkeep : job ∈ keep
  · simp [hkeep]
  · cases dryRun with
    | true => simp [hkeep]
    | false =>
      by_cases hlocked : o.path.place ∈ m.locked
      · simp [hkeep, hlocked]
      · simp [hkeep, hlocked]

/-- An outcome belongs to an entry of the folder. -/
theorem mem_outcomes {o : Outcome} :
  o ∈ (m.plan folder).map (m.outcomeOf keep dryRun)
    ↔ ∃ e ∈ m.plan folder, m.outcomeOf keep dryRun e = o
  := List.mem_map

/-- A place has a deleted file exactly if an outcome at it says so. -/
theorem mem_deletedPlaces_iff_outcome {e : Path × List UInt8} (he : e ∈ m.files.entries) :
  e.1.place ∈ m.deletedPlaces keep dryRun (m.plan folder)
    ↔ ∃ o ∈ (m.plan folder).map (m.outcomeOf keep dryRun), o.path = e.1 ∧ o.fate = .deleted
  := by
  rw [mem_deletedPlaces]
  constructor
  · rintro ⟨entry, hentry, hfate, hplace⟩
    use m.outcomeOf keep dryRun entry, List.mem_map_of_mem hentry
    obtain ⟨bytes, hstored⟩ := Shelf.mem_paths_iff.1 (mem_plan.1 hentry).1
    constructor
    · exact congrArg Prod.fst (Shelf.eq_of_place_eq hstored he hplace)
    · exact hfate
  · rintro ⟨o, ho, hpath, hfate⟩
    obtain ⟨entry, hentry, rfl⟩ := mem_outcomes.1 ho
    exact ⟨entry, hentry, hfate, congrArg Path.place hpath⟩

/-- The outcomes of the entries of a folder and the store without the deleted files are
what they should be. -/
theorem swept_plan (m : Memory) (folder : JobFolder) (keep : List JobName) (dryRun : Bool) :
  m.Swept folder keep dryRun ((m.plan folder).map (m.outcomeOf keep dryRun))
    (m.without (m.deletedPlaces keep dryRun (m.plan folder)))
  := by
  constructor
  case ordered =>
    apply List.pairwise_map.2
    exact plan_ordered
  case reported =>
    intro path
    constructor
    · rintro ⟨o, ho, rfl⟩
      obtain ⟨e, he, rfl⟩ := mem_outcomes.1 ho
      obtain ⟨hpath, hparent, hname, hjob⟩ := mem_plan.1 he
      exact ⟨hpath, hparent, e.job, by rw [hjob]; exact hname⟩
    · rintro ⟨hpath, hparent, job, hname⟩
      have he : ⟨folder.fileName job, path, job⟩ ∈ m.plan folder :=
        mem_plan.2 ⟨hpath, hparent, hname, rfl⟩
      exact ⟨_, List.mem_map_of_mem he, rfl⟩
  case named =>
    intro o ho
    obtain ⟨e, he, rfl⟩ := mem_outcomes.1 ho
    exact (mem_plan.1 he).2.2.1
  case fates =>
    intro o ho job hjob
    obtain ⟨e, he, rfl⟩ := mem_outcomes.1 ho
    have hsame : job = e.job := JobFolder.fileName_injective (hjob.trans (mem_plan.1 he).2.2.2.symm)
    rw [hsame]
    exact fateOf_eq
  case files =>
    intro e
    rw [without, Shelf.mem_without_iff]
    apply and_congr_right
    intro he
    rw [mem_deletedPlaces_iff_outcome he]
    simp only [not_exists, not_and]
  case unchanged => rfl
  case counts => exact Outcome.keptCount_add_deletedCount_add_failedCount _

/-- A sweep of a folder that is there comes to what it should; a sweep of one that is not
there fails and leaves the store exactly as it was. -/
theorem sweep_exact (m : Memory) (folder : JobFolder) (keep : List JobName) (dryRun : Bool) :
  if m.isFolder folder.path then
    ∃ outcomes m', m.sweep folder keep dryRun = (.ok outcomes, m')
      ∧ m.Swept folder keep dryRun outcomes m'
  else m.sweep folder keep dryRun = (.error (.folderNotFound folder.path), m)
  := by
  split
  · next h => exact ⟨_, _, sweep_of_isFolder h, swept_plan m folder keep dryRun⟩
  · next h => exact sweep_of_not_isFolder (by simpa using h)

end Memory

end RobotJobs
