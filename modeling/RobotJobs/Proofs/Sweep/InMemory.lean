import RobotJobs.Proofs.Job.Folder
import RobotJobs.Proofs.Storage.Shelf
import RobotJobs.Storage.Memory

/-!
# Sweeps of files in memory

A sweep removes files while it goes through a list that was made before.  Every file on
that list is still there when its turn comes, for the only file that a step takes away is
its own.  So what happens to a file can be told from the store before the sweep
(`Memory.fateOf`), and the store after the sweep is the one before it without the files
that were deleted (`carryOut_eq`).
-/

namespace RobotJobs

namespace SweepEntry

variable {folder : JobFolder} {path : Path} {e : SweepEntry}

/-- The entry for a path has the path, its file name and the job that the file is named
after. -/
theorem ofPath?_eq_some_iff :
  ofPath? folder path = some e
    ↔ e.path = path ∧ path.fileNameText? = some e.fileName ∧ folder.fileName e.job = e.fileName
  := by
  obtain ⟨fileName, path', job⟩ := e
  unfold ofPath?
  cases path.fileNameText? with
  | none => simp
  | some name =>
    simp only [Option.map_eq_some_iff, JobFolder.jobOf?_eq_some_iff, Option.some.injEq, mk.injEq]
    constructor
    · rintro ⟨job, rfl, rfl, rfl, rfl⟩
      exact ⟨rfl, rfl, rfl⟩
    · rintro ⟨rfl, rfl, hjob⟩
      exact ⟨job, hjob, rfl, rfl, rfl⟩

end SweepEntry

namespace Memory

variable (m : Memory) (keep : List JobName) (dryRun : Bool)

/-! ### One file -/

/-- What a sweep does with a file, and the store after it. -/
def treat (e : SweepEntry) : Fate × Memory :=
  if keep.contains e.job then (.kept, m)
  else if dryRun then (.wouldDelete, m)
  else match m.remove e.path with
    | (.ok (), m') => (.deleted, m')
    | (.error fault, m') => (.failed fault.message, m')

/-- What becomes of a file that is named after a job. -/
def fateOf (job : JobName) (path : Path) : Fate :=
  if job ∈ keep then .kept
  else if dryRun then .wouldDelete
  else if m.locked.contains path.place then .failed (StorageFault.denied path).message
  else .deleted

/-- The store without the files at some places. -/
def without (places : List Place) : Memory :=
  { m with files := m.files.without places }

variable {m keep dryRun}

theorem fateOf_eq {job : JobName} {path : Path} :
  m.fateOf keep dryRun job path
    = if job ∈ keep then .kept
      else if dryRun then .wouldDelete
      else if path.place ∈ m.locked then .failed (StorageFault.denied path).message
      else .deleted
  := by
  simp only [fateOf, List.contains_iff_mem]

theorem without_nil (m : Memory) :
  m.without [] = m
  := by
  rw [without, Shelf.without_nil]

theorem without_discard {path : Path} {places : List Place} :
  (m.discard path).without places = m.without (path.place :: places)
  := by
  simp only [without, discard, Shelf.without_erase]

/-- A file that is there is treated by its name and the locks alone, and a file that is
deleted is the only one that goes. -/
theorem treat_eq {e : SweepEntry} (h : (m.files.find? e.path.place).isSome) :
  m.treat keep dryRun e
    = (m.fateOf keep dryRun e.job e.path,
        if m.fateOf keep dryRun e.job e.path = .deleted then m.discard e.path else m)
  := by
  obtain ⟨bytes, hfound⟩ := Option.isSome_iff_exists.1 h
  by_cases hkeep : e.job ∈ keep
  · simp [treat, fateOf, hkeep]
  · cases dryRun with
    | true => simp [treat, fateOf, hkeep]
    | false =>
      by_cases hlocked : e.path.place ∈ m.locked
      · simp [treat, fateOf, hkeep, hlocked, remove]
      · simp [treat, fateOf, hkeep, hlocked, remove, hfound]

/-! ### The whole list -/

theorem carryOut_nil :
  m.carryOut keep dryRun [] = ([], m)
  := rfl

theorem carryOut_cons {e : SweepEntry} {es : List SweepEntry} :
  m.carryOut keep dryRun (e :: es)
    = (⟨e.fileName, e.path, (m.treat keep dryRun e).1⟩
          :: ((m.treat keep dryRun e).2.carryOut keep dryRun es).1,
        ((m.treat keep dryRun e).2.carryOut keep dryRun es).2)
  := by
  unfold treat carryOut
  simp only [RobotJobs.sweep]
  split
  · rfl
  · split
    · rfl
    · simp only [StateT.run, bind, StateT.bind]
      rcases m.remove e.path with ⟨_ | _, m'⟩
      · rfl
      · rfl

/-- The outcome for an entry, told from the store before the sweep. -/
def outcomeOf (m : Memory) (keep : List JobName) (dryRun : Bool) (e : SweepEntry) : Outcome :=
  ⟨e.fileName, e.path, m.fateOf keep dryRun e.job e.path⟩

/-- The places of the files that a sweep deletes, told from the store before it. -/
def deletedPlaces (m : Memory) (keep : List JobName) (dryRun : Bool) (plan : List SweepEntry) :
    List Place :=
  (plan.filter fun e => m.fateOf keep dryRun e.job e.path = .deleted).map fun e => e.path.place

/-- The fates do not depend on which files are there. -/
theorem outcomeOf_discard (m : Memory) (path : Path) :
  (m.discard path).outcomeOf keep dryRun = m.outcomeOf keep dryRun
  := rfl

theorem deletedPlaces_discard (m : Memory) (path : Path) (plan : List SweepEntry) :
  (m.discard path).deletedPlaces keep dryRun plan = m.deletedPlaces keep dryRun plan
  := rfl

theorem mem_deletedPlaces {plan : List SweepEntry} {place : Place} :
  place ∈ m.deletedPlaces keep dryRun plan
    ↔ ∃ e ∈ plan, m.fateOf keep dryRun e.job e.path = .deleted ∧ e.path.place = place
  := by
  simp [deletedPlaces, and_assoc]

/-- A sweep through files that are all there and all different gives every file its fate,
and takes away the deleted ones. -/
theorem carryOut_eq {plan : List SweepEntry}
    (hplan : plan.Pairwise fun e e' => e.path.place ≠ e'.path.place)
    (hstored : ∀ e ∈ plan, (m.files.find? e.path.place).isSome) :
  m.carryOut keep dryRun plan
    = (plan.map (m.outcomeOf keep dryRun), m.without (m.deletedPlaces keep dryRun plan))
  := by
  induction plan generalizing m with
  | nil => simp [carryOut_nil, deletedPlaces, without]
  | cons e es ih =>
    obtain ⟨hfirst, hrest⟩ := List.pairwise_cons.1 hplan
    rw [carryOut_cons, treat_eq (hstored e List.mem_cons_self)]
    by_cases hfate : m.fateOf keep dryRun e.job e.path = .deleted
    · -- The deletion leaves the files that follow and the locks, so their fates stay.
      have hstored' : ∀ e' ∈ es, ((m.discard e.path).files.find? e'.path.place).isSome := by
        intro e' he'
        rw [discard, Shelf.find?_erase_of_ne (Ne.symm (hfirst e' he'))]
        exact hstored e' (List.mem_cons_of_mem _ he')
      have hih := ih hrest hstored'
      rw [outcomeOf_discard, deletedPlaces_discard, without_discard] at hih
      simp only [hfate, if_true, hih]
      simp [outcomeOf, deletedPlaces, hfate]
    · have hih := ih hrest fun e' he' => hstored e' (List.mem_cons_of_mem _ he')
      simp only [hfate, if_false, hih]
      simp [outcomeOf, deletedPlaces, hfate]

/-! ### The files of a folder -/

/-- The entries of a folder. -/
def plan (m : Memory) (folder : JobFolder) : List SweepEntry :=
  (m.files.paths.filter fun p => p.parent? = some folder.path.place).filterMap
    (SweepEntry.ofPath? folder)

variable {folder : JobFolder}

theorem mem_plan {e : SweepEntry} :
  e ∈ m.plan folder
    ↔ e.path ∈ m.files.paths ∧ e.path.parent? = some folder.path.place
      ∧ e.path.fileNameText? = some e.fileName ∧ folder.fileName e.job = e.fileName
  := by
  simp only [plan, List.mem_filterMap, List.mem_filter, decide_eq_true_eq,
    SweepEntry.ofPath?_eq_some_iff]
  constructor
  · rintro ⟨path, ⟨hpath, hparent⟩, rfl, hname, hjob⟩
    exact ⟨hpath, hparent, hname, hjob⟩
  · rintro ⟨hpath, hparent, hname, hjob⟩
    exact ⟨e.path, ⟨hpath, hparent⟩, rfl, hname, hjob⟩

/-- The entries of a folder come in the order of their places. -/
theorem plan_ordered :
  (m.plan folder).Pairwise fun e e' => e.path.place.Before e'.path.place
  := by
  apply List.Pairwise.filterMap _ _ (m.files.paths_ordered.filter _)
  intro path path' hbefore e he e' he'
  rw [(SweepEntry.ofPath?_eq_some_iff.1 he).1, (SweepEntry.ofPath?_eq_some_iff.1 he').1]
  exact hbefore

theorem plan_distinct :
  (m.plan folder).Pairwise fun e e' => e.path.place ≠ e'.path.place
  := by
  apply plan_ordered.imp
  intro e e' hbefore heq
  rw [heq] at hbefore
  exact Place.not_before_self _ hbefore

/-- A sweep of a folder that is there follows its entries. -/
theorem sweep_of_isFolder (h : m.isFolder folder.path = true) :
  m.sweep folder keep dryRun
    = (.ok ((m.plan folder).map (m.outcomeOf keep dryRun)),
        m.without (m.deletedPlaces keep dryRun (m.plan folder)))
  := by
  have hall : SweepEntry.all m.view folder = .ok (m.plan folder) := by
    simp [SweepEntry.all, view, list, h, plan]
  have hstored : ∀ e ∈ m.plan folder, (m.files.find? e.path.place).isSome := by
    intro e he
    exact Shelf.isSome_find?_of_mem_paths (mem_plan.1 he).1
  rw [sweep, hall]
  simp only [carryOut_eq plan_distinct hstored]

/-- A sweep of a folder that is not there fails and leaves the store as it is. -/
theorem sweep_of_not_isFolder (h : m.isFolder folder.path = false) :
  m.sweep folder keep dryRun = (.error (.folderNotFound folder.path), m)
  := by
  simp [sweep, SweepEntry.all, view, h]

end Memory

end RobotJobs
