import RobotJobs.Proofs.Call.Listed
import RobotJobs.Proofs.Path.Joining
import RobotJobs.Proofs.Sweep.Swept
import RobotJobs.Proofs.Text.Utf8

/-!
# What the kept files refer to

A sweep after an analysis keeps the files of the jobs that the analysis reached.  The
analysis goes from a job to the path of its file, and the sweep from a path to the job
that the file is named after.  The two agree on every file whose name is a text: the job
leads back to the file, so the file was read and the jobs that it refers to are kept as
well.  A file whose name is not a text can be kept for a job whose path leads elsewhere;
then nothing is known of what it refers to (`sweep_reachable_spares_iff`).
-/

namespace RobotJobs

/-- No file that is named after one of the jobs is reported as deleted. -/
def Outcome.Spares (folder : JobFolder) (outcomes : List Outcome) (jobs : List JobName) : Prop :=
  ∀ job ∈ jobs, ∀ o ∈ outcomes, o.fileName = folder.fileName job → o.fate ≠ .deleted

/-- The path of a job leads to the file that is named after it, if the name is a text. -/
theorem JobFolder.place_jobPath {folder : JobFolder} {job : JobName} {path : Path}
    {name : List UInt8} (hparent : path.parent? = some folder.path.place)
    (hname : path.fileName? = some name) (htext : Text.IsText name)
    (hjob : folder.fileName job = Text.ofBytes name) :
  (folder.jobPath job).place = path.place
  := by
  have hbytes : Text.toBytes (folder.fileName job) = name := by
    rw [hjob]
    exact Text.isText_iff.1 htext
  rw [← Path.place_join_fileName? hparent hname, ← hbytes]
  rfl

namespace Memory

variable {m m' : Memory} {folder : JobFolder} {keep : List JobName} {dryRun : Bool}
  {outcomes : List Outcome} {job : JobName} {path : Path} {name bytes : List UInt8}

/-- A folder in which a starting job is resolved is there. -/
theorem isFolder_of_resolveRoot {input : String} {root : JobName}
    (h : m.view.resolveRoot folder input = .ok root) :
  m.isFolder folder.path = true
  := by
  obtain ⟨-, -, hfolder, -⟩ := resolveRoot_view_iff.1 h
  exact hfolder

/-- A file is found at the place that it is stored at. -/
theorem find?_eq_some_of_mem (hcase : m.ignoresCase = false) {path' : Path}
    (hstored : (path, bytes) ∈ m.files.entries) (hplace : path'.place = path.place) :
  m.find? path' = some bytes
  := by
  simp only [find?, hcase]
  exact Shelf.find?_eq_some_iff.2 ⟨path, hstored, hplace.symm⟩

/-- A job can be loaded from a file that is named after it, if the name is a text and the
file is not denied to readers. -/
theorem loads_of_isText (hcase : m.ignoresCase = false)
    (hstored : (path, bytes) ∈ m.files.entries) (hparent : path.parent? = some folder.path.place)
    (hname : path.fileName? = some name) (htext : Text.IsText name)
    (hjob : folder.fileName job = Text.ofBytes name) (hstem : job.isFileStem = true)
    (hdenied : path.place ∉ m.denied) :
  m.view.Loads folder job bytes
  := by
  have hplace := JobFolder.place_jobPath hparent hname htext hjob
  constructor
  · exact JobName.isFileStem_iff.1 hstem
  · intro paths hlist
    have hlisted : m.list folder.path = .ok paths := hlist
    unfold list at hlisted
    split at hlisted
    · cases hlisted
      use path
      constructor
      · simp only [List.mem_filter, decide_eq_true_eq]
        exact ⟨Shelf.mem_paths_iff.2 ⟨bytes, hstored⟩, hparent⟩
      · rw [Path.fileNameText?, hname, hjob]
        rfl
    · cases hlisted
  · apply read_eq_ok_iff.2
    rw [hplace]
    exact ⟨hdenied, find?_eq_some_of_mem hcase hstored hplace⟩

/-- The files of jobs are spared exactly if the sweep is a dry run, or every one of the
jobs is to be kept or has only locked files. -/
theorem Swept.spares_iff {jobs : List JobName} (h : m.Swept folder keep dryRun outcomes m') :
  Outcome.Spares folder outcomes jobs
    ↔ dryRun = true ∨ ∀ job ∈ jobs, job ∈ keep
      ∨ ∀ path ∈ m.files.paths, path.parent? = some folder.path.place →
        path.fileNameText? = some (folder.fileName job) → path.place ∈ m.locked
  := by
  constructor
  · intro hspares
    cases dryRun with
    | true => exact .inl rfl
    | false =>
      apply Or.inr
      intro job hjob
      by_cases hkeep : job ∈ keep
      · exact .inl hkeep
      · apply Or.inr
        intro path hpath hparent hname
        by_contra hlocked
        obtain ⟨o, ho, rfl⟩ := (h.reported path).2 ⟨hpath, hparent, job, hname⟩
        have hnamed : o.fileName = folder.fileName job := by
          rw [h.named o ho] at hname
          exact Option.some.inj hname
        apply hspares job hjob o ho hnamed
        exact (h.deleted_iff ho hnamed.symm).2 ⟨hkeep, rfl, hlocked⟩
  · intro hspared job hjob o ho hnamed hdeleted
    obtain ⟨hkeep, hreal, hlocked⟩ := (h.deleted_iff ho hnamed.symm).1 hdeleted
    rcases hspared with hdry | hspared
    · rw [hreal] at hdry
      cases hdry
    · rcases hspared job hjob with hkept | hall
      · exact hkeep hkept
      · obtain ⟨hpath, hparent, -⟩ := (h.reported o.path).1 ⟨o, ho, rfl⟩
        apply hlocked
        apply hall o.path hpath hparent
        rw [h.named o ho, hnamed]

/-- A sweep that keeps what the analysis of a starting job reached.  Let a kept file be
one that may be read and whose job may be the stem of a file.  The files of the jobs that
it refers to are spared exactly if nothing is deleted at all, or the file's name is a
text, or these jobs happen to be reached from elsewhere or to have only locked files. -/
theorem sweep_reachable_spares_iff (m : Memory) (hcase : m.ignoresCase = false)
    (folder : JobFolder) (input : String) (root : JobName)
    (h : m.view.resolveRoot folder input = .ok root) (dryRun : Bool) :
  ∃ outcomes m', m.sweep folder (m.view.analyze folder root).reachable dryRun
      = (.ok outcomes, m')
    ∧ ∀ o ∈ outcomes, o.fate = .kept →
      ∀ job, folder.fileName job = o.fileName → job.isFileStem = true →
      o.path.place ∉ m.denied → ∀ bytes, (o.path, bytes) ∈ m.files.entries →
        (Outcome.Spares folder outcomes (Reference.inBytes folder.marker bytes)
          ↔ dryRun = true ∨ (∃ name, o.path.fileName? = some name ∧ Text.IsText name)
            ∨ ∀ called ∈ Reference.inBytes folder.marker bytes,
              called ∈ (m.view.analyze folder root).reachable
                ∨ ∀ path ∈ m.files.paths, path.parent? = some folder.path.place →
                  path.fileNameText? = some (folder.fileName called) → path.place ∈ m.locked)
  := by
  refine ⟨_, _, sweep_of_isFolder (isFolder_of_resolveRoot h), ?_⟩
  have hswept := swept_plan m folder (m.view.analyze folder root).reachable dryRun
  intro o ho hkept job hjob hstem hdenied bytes hstored
  rw [hswept.spares_iff]
  constructor
  · exact Or.imp_right .inr
  · rintro (hdry | ⟨name, hname, htext⟩ | hspared)
    · exact .inl hdry
    · -- The file was read for its job, and the job is reached.
      apply Or.inr
      intro called hcalled
      apply Or.inl
      have hreached := (hswept.kept_iff ho hjob).1 hkept
      have hnamed : folder.fileName job = Text.ofBytes name := by
        have hlossy := hswept.named o ho
        rw [Path.fileNameText?, hname] at hlossy
        rw [hjob]
        exact (Option.some.inj hlossy).symm
      have hparent := ((hswept.reported o.path).1 ⟨o, ho, rfl⟩).2.1
      have hloads := loads_of_isText hcase hstored hparent hname htext hnamed hstem hdenied
      exact FileView.closedUnderCalls_reachable job hreached bytes hloads called hcalled
    · exact .inr hspared

/-- A store with three jobs in the folder `/jobs`: `MAIN` refers to the job whose stem is
given as bytes, and that one refers to `B`. -/
def withChain (stem : List UInt8) : Memory :=
  (withCaller stem).add (samplePath (Text.toBytes "MAIN")) (Text.toBytes "CALL JOB:" ++ stem)

/-- The entry for the file with a stem. -/
def chainEntry (stem : List UInt8) : SweepEntry :=
  ⟨Text.ofBytes stem ++ ".JBI", samplePath stem, ⟨Text.ofBytes stem⟩⟩

theorem resolveRoot_withChain :
  (withChain [0x41]).view.resolveRoot sampleFolder "MAIN" = .ok ⟨"MAIN"⟩
    ∧ (withChain [0x41, 0xFF]).view.resolveRoot sampleFolder "MAIN" = .ok ⟨"MAIN"⟩
  := by
  constructor
  · apply FileView.resolveRoot_eq_ok_iff.2
    exact ⟨by decide, by decide, _, rfl, samplePath (Text.toBytes "MAIN"), by decide, by decide⟩
  · apply FileView.resolveRoot_eq_ok_iff.2
    exact ⟨by decide, by decide, _, rfl, samplePath (Text.toBytes "MAIN"), by decide, by decide⟩

/-- The job in the middle of the chain is reached. -/
theorem middle_mem_reachable {stem : List UInt8}
    (h : (withChain stem).view.resolveRoot sampleFolder "MAIN" = .ok ⟨"MAIN"⟩)
    (hread : (withChain stem).view.read (sampleFolder.jobPath ⟨"MAIN"⟩)
      = .ok (Text.toBytes "CALL JOB:" ++ stem))
    (hcalls : Reference.inBytes sampleFolder.marker (Text.toBytes "CALL JOB:" ++ stem)
      = [⟨Text.ofBytes stem⟩]) :
  ⟨Text.ofBytes stem⟩ ∈ ((withChain stem).view.analyze sampleFolder ⟨"MAIN"⟩).reachable
  := by
  apply FileView.closedUnderCalls_reachable ⟨"MAIN"⟩ FileView.root_mem_reachable _
    ((FileView.loads_iff_of_resolveRoot h).2 hread)
  rw [hcalls]
  exact List.mem_singleton.2 rfl

/-- A kept file whose name is a text spares the file that it refers to. -/
theorem sweep_withChain_spares :
  ∃ outcomes m', (withChain [0x41]).sweep sampleFolder
      ((withChain [0x41]).view.analyze sampleFolder ⟨"MAIN"⟩).reachable false = (.ok outcomes, m')
    ∧ (∃ o ∈ outcomes, o.path = samplePath [0x41] ∧ o.fate = .kept)
    ∧ Outcome.Spares sampleFolder outcomes [⟨"B"⟩]
  := by
  obtain ⟨outcomes, m', hsweep, hall⟩ := sweep_reachable_spares_iff (withChain [0x41]) rfl
    sampleFolder "MAIN" ⟨"MAIN"⟩ resolveRoot_withChain.1 false
  have hreached := middle_mem_reachable resolveRoot_withChain.1 rfl (by decide)
  generalize ((withChain [0x41]).view.analyze sampleFolder ⟨"MAIN"⟩).reachable = keep at *
  have ho : (withChain [0x41]).outcomeOf keep false (chainEntry [0x41]) ∈ outcomes := by
    rw [sweep_of_isFolder (by decide)] at hsweep
    cases hsweep
    exact List.mem_map_of_mem (by decide)
  have hkept : ((withChain [0x41]).outcomeOf keep false (chainEntry [0x41])).fate = .kept :=
    if_pos hreached
  have hname : sampleFolder.fileName ⟨"A"⟩ = (chainEntry [0x41]).fileName := by decide
  have hdenied : (chainEntry [0x41]).path.place ∉ (withChain [0x41]).denied := by decide
  have hstored : ((chainEntry [0x41]).path, Text.toBytes "CALL JOB:B")
      ∈ (withChain [0x41]).files.entries := by decide
  use outcomes, m', hsweep, ⟨_, ho, rfl, hkept⟩
  apply (hall _ ho hkept ⟨"A"⟩ hname (by decide) hdenied _ hstored).2
  exact .inr (.inl ⟨_, rfl, "A.JBI", by decide⟩)

/-- The analysis of the chain does not reach its end, if the path of the job in the middle
leads nowhere. -/
theorem end_not_mem_reachable :
  ⟨"B"⟩ ∉ ((withChain [0x41, 0xFF]).view.analyze sampleFolder ⟨"MAIN"⟩).reachable
  := by
  intro h
  have hend : (⟨"B"⟩ : JobName) ∈ ({⟨"MAIN"⟩, ⟨"A\uFFFD"⟩} : Set JobName) := by
    apply FileView.mem_of_mem_reachable _ (.inl rfl) _ h
    rintro job (rfl | rfl) bytes hloads called hcalled
    · have hread := hloads.read
      have hmain : (withChain [0x41, 0xFF]).view.read (sampleFolder.jobPath ⟨"MAIN"⟩)
          = .ok (Text.toBytes "CALL JOB:" ++ [0x41, 0xFF]) := rfl
      rw [hmain] at hread
      cases hread
      have hcalls : Reference.inBytes sampleFolder.marker
          (Text.toBytes "CALL JOB:" ++ [0x41, 0xFF]) = [⟨"A\uFFFD"⟩] := by decide
      rw [hcalls] at hcalled
      exact .inr (List.mem_singleton.1 hcalled)
    · have hread := hloads.read
      have hmiddle : (withChain [0x41, 0xFF]).view.read (sampleFolder.jobPath ⟨"A\uFFFD"⟩)
          = .error (.notFound (sampleFolder.jobPath ⟨"A\uFFFD"⟩)) := rfl
      rw [hmiddle] at hread
      cases hread
  rcases hend with h | h
  · exact absurd h (by decide)
  · exact absurd h (by decide)

/-- A kept file whose name is not a text need not spare the file that it refers to. -/
theorem sweep_withChain_deletes :
  (withChain [0x41, 0xFF]).view.resolveRoot sampleFolder "MAIN" = .ok ⟨"MAIN"⟩
    ∧ ∃ outcomes m', (withChain [0x41, 0xFF]).sweep sampleFolder
        ((withChain [0x41, 0xFF]).view.analyze sampleFolder ⟨"MAIN"⟩).reachable false
          = (.ok outcomes, m')
      ∧ ∃ o ∈ outcomes, o.fate = .kept ∧ sampleFolder.fileName ⟨"A\uFFFD"⟩ = o.fileName
        ∧ JobName.isFileStem ⟨"A\uFFFD"⟩ = true ∧ o.path.place ∉ (withChain [0x41, 0xFF]).denied
        ∧ (o.path, Text.toBytes "CALL JOB:B") ∈ (withChain [0x41, 0xFF]).files.entries
        ∧ ¬ Outcome.Spares sampleFolder outcomes
          (Reference.inBytes sampleFolder.marker (Text.toBytes "CALL JOB:B"))
  := by
  refine ⟨resolveRoot_withChain.2, _, _, sweep_of_isFolder (by decide), ?_⟩
  have hreached := middle_mem_reachable resolveRoot_withChain.2 rfl (by decide)
  have hend := end_not_mem_reachable
  generalize ((withChain [0x41, 0xFF]).view.analyze sampleFolder ⟨"MAIN"⟩).reachable = keep at *
  have hname : sampleFolder.fileName ⟨"A\uFFFD"⟩ = (chainEntry [0x41, 0xFF]).fileName := by
    decide
  have hdenied : (chainEntry [0x41, 0xFF]).path.place ∉ (withChain [0x41, 0xFF]).denied := by
    decide
  have hstored : ((chainEntry [0x41, 0xFF]).path, Text.toBytes "CALL JOB:B")
      ∈ (withChain [0x41, 0xFF]).files.entries := by decide
  refine ⟨_, List.mem_map_of_mem (show chainEntry [0x41, 0xFF] ∈ _ by decide),
    if_pos hreached, hname, by decide, hdenied, hstored, ?_⟩
  intro hspares
  have hlast : (chainEntry (Text.toBytes "B")).fileName = sampleFolder.fileName ⟨"B"⟩ := by decide
  apply hspares ⟨"B"⟩ (by decide) _
    (List.mem_map_of_mem (show chainEntry (Text.toBytes "B") ∈ _ by decide)) hlast
  exact if_neg hend

end Memory

end RobotJobs
