import RobotJobs.Proofs.Call.Listed
import RobotJobs.Proofs.Sweep.Swept

/-!
# Whole runs

`Memory.prune` is a whole run: the starting job that an input names is analysed, and the
folder is swept of all files but those of the jobs that the analysis reached.  A run can
only stop before its sweep, for a starting job that is resolved is in a folder that is
there.  If it does not stop, the files of the starting job are kept (`prune_failSafe`).
-/

namespace RobotJobs

/-- An input that names no starting job is refused with an error that precedes the sweep. -/
theorem FileView.precedesSweep_of_resolveRoot {view : FileView} {folder : JobFolder}
    {input : String} {e : RunError} (h : view.resolveRoot folder input = .error e) :
  e.precedesSweep = true
  := by
  unfold resolveRoot at h
  split at h
  · next e' hinput =>
    cases h
    unfold JobName.ofInput at hinput
    dsimp only at hinput
    split at hinput
    · cases hinput
      rfl
    · cases hinput
  · split at h
    · cases h
      rfl
    · dsimp only at h
      split at h
      · cases h
      · split at h
        · cases h
          rfl
        · cases h
          rfl

namespace Memory

/-- A whole run: the outcomes of the sweep, or the error that stopped the run, and the store
after it. -/
def prune (m : Memory) (folder : JobFolder) (input : String) (dryRun : Bool) :
    Except RunError (List Outcome) × Memory :=
  match m.view.resolveRoot folder input with
  | .error e => (.error e, m)
  | .ok root => m.sweep folder (m.view.analyze folder root).reachable dryRun

variable {m m' : Memory} {folder : JobFolder} {input : String} {root job : JobName}
  {keep : List JobName} {dryRun : Bool} {outcomes : List Outcome} {o : Outcome} {e : RunError}

theorem prune_of_error (h : m.view.resolveRoot folder input = .error e) :
  m.prune folder input dryRun = (.error e, m)
  := by
  rw [prune, h]

theorem prune_of_ok (h : m.view.resolveRoot folder input = .ok root) :
  m.prune folder input dryRun
    = m.sweep folder (m.view.analyze folder root).reachable dryRun
  := by
  rw [prune, h]

/-- A sweep of a folder that is there succeeds and comes to what it should. -/
theorem exists_swept (m : Memory) (keep : List JobName) (dryRun : Bool)
    (h : m.isFolder folder.path = true) :
  ∃ outcomes m', m.sweep folder keep dryRun = (.ok outcomes, m')
    ∧ m.Swept folder keep dryRun outcomes m'
  := ⟨_, _, sweep_of_isFolder h, swept_plan m folder keep dryRun⟩

/-- A file that the folder holds for a job is reported. -/
theorem Swept.exists_outcome (h : m.Swept folder keep dryRun outcomes m')
    (hholds : m.Holds folder.path (folder.fileName job)) :
  ∃ o ∈ outcomes, o.fileName = folder.fileName job
  := by
  obtain ⟨path, hpath, hparent, hname⟩ := hholds
  obtain ⟨o, ho, rfl⟩ := (h.reported path).2 ⟨hpath, hparent, job, hname⟩
  rw [h.named o ho] at hname
  exact ⟨o, ho, Option.some.inj hname⟩

/-- A file of a job to be kept is still there after the sweep, with its content. -/
theorem Swept.stored_of_mem_keep (h : m.Swept folder keep dryRun outcomes m') (ho : o ∈ outcomes)
    (hname : o.fileName = folder.fileName job) (hkeep : job ∈ keep) :
  ∃ bytes, (o.path, bytes) ∈ m.files.entries ∧ (o.path, bytes) ∈ m'.files.entries
  := by
  obtain ⟨hpath, -, -⟩ := (h.reported o.path).1 ⟨o, ho, rfl⟩
  obtain ⟨bytes, hstored⟩ := Shelf.mem_paths_iff.1 hpath
  refine ⟨bytes, hstored, (h.files _).2 ⟨hstored, ?_⟩⟩
  -- Any other outcome at this path would be about the same file name, so about the same job.
  intro o' ho' hsame hdeleted
  have hname' : o'.fileName = folder.fileName job := by
    have hnamed := h.named o' ho'
    rw [hsame, h.named o ho, hname] at hnamed
    exact (Option.some.inj hnamed).symm
  exact ((h.deleted_iff ho' hname'.symm).1 hdeleted).1 hkeep

/-- A run stops with an error that precedes the sweep and leaves the store exactly as it
was, or it succeeds.  Then some outcome is about a file with the name of the starting job's
file, and every such outcome says that the file was kept, and the file is stored with the
same content as before.  Once the starting job is resolved, a sweep of the folder cannot
fail, whatever jobs it is to keep. -/
theorem prune_failSafe (m : Memory) (folder : JobFolder) (input : String) (dryRun : Bool) :
  ((∃ e, m.prune folder input dryRun = (.error e, m) ∧ e.precedesSweep = true)
      ∨ ∃ root outcomes m', m.view.resolveRoot folder input = .ok root
        ∧ m.prune folder input dryRun = (.ok outcomes, m')
        ∧ (∃ o ∈ outcomes, o.fileName = folder.fileName root)
        ∧ ∀ o ∈ outcomes, o.fileName = folder.fileName root → o.fate = .kept
          ∧ ∃ bytes, (o.path, bytes) ∈ m.files.entries ∧ (o.path, bytes) ∈ m'.files.entries)
    ∧ ∀ root, m.view.resolveRoot folder input = .ok root →
      ∀ keep, ∃ outcomes m', m.sweep folder keep dryRun = (.ok outcomes, m')
  := by
  constructor
  · cases hresolve : m.view.resolveRoot folder input with
    | error e =>
      apply Or.inl
      exact ⟨e, prune_of_error hresolve, FileView.precedesSweep_of_resolveRoot hresolve⟩
    | ok root =>
      apply Or.inr
      obtain ⟨-, -, hfolder, hholds⟩ := resolveRoot_view_iff.1 hresolve
      obtain ⟨outcomes, m', hsweep, hswept⟩ :=
        exists_swept m (m.view.analyze folder root).reachable dryRun hfolder
      use root, outcomes, m', rfl
      rw [prune_of_ok hresolve]
      refine ⟨hsweep, hswept.exists_outcome hholds, ?_⟩
      intro o ho hname
      have hkeep : root ∈ (m.view.analyze folder root).reachable := FileView.root_mem_reachable
      exact ⟨(hswept.kept_iff ho hname.symm).2 hkeep, hswept.stored_of_mem_keep ho hname hkeep⟩
  · intro root hresolve keep
    obtain ⟨-, -, hfolder, -⟩ := resolveRoot_view_iff.1 hresolve
    obtain ⟨outcomes, m', hsweep, -⟩ := exists_swept m keep dryRun hfolder
    exact ⟨outcomes, m', hsweep⟩

end Memory

end RobotJobs
