import RobotJobs.Proofs.Call.Agreement
import RobotJobs.Proofs.Path.Shown
import RobotJobs.Proofs.Sweep.Prune

/-!
# A second run

A sweep leaves every file of a job to be kept, and the path of such a job, if a file is
listed for it at all, leads to such a file.  So after a sweep that keeps what an analysis
reached, the same is answered about all these jobs, and the analysis is as before
(`Memory.analyze_afterSweep`).  Of the files that are named after jobs only the kept and the
locked ones are left, and a second sweep treats them as the first one did: a second run
changes nothing (`Memory.prune_again`).
-/

namespace RobotJobs

namespace Memory

/-- The store after a sweep of a folder that is there. -/
def afterSweep (m : Memory) (folder : JobFolder) (keep : List JobName) (dryRun : Bool) : Memory :=
  m.without (m.deletedPlaces keep dryRun (m.plan folder))

variable {m : Memory} {folder : JobFolder} {keep : List JobName} {dryRun : Bool}
  {job root : JobName} {path : Path} {places : List Place} {e : SweepEntry} {input : String}

/-! ### What a sweep leaves -/

/-- No file with the name of a file of a job to be kept is deleted. -/
theorem place_not_mem_deletedPlaces (hname : path.fileNameText? = some (folder.fileName job))
    (hkeep : job ∈ keep) :
  path.place ∉ m.deletedPlaces keep dryRun (m.plan folder)
  := by
  intro hdeleted
  obtain ⟨e, he, hfate, hplace⟩ := mem_deletedPlaces.1 hdeleted
  obtain ⟨-, -, hnamed, hjob⟩ := mem_plan.1 he
  rw [Path.fileNameText?_congr hplace, hname, ← hjob, Option.some.injEq] at hnamed
  rw [fateOf, if_pos (JobFolder.fileName_injective hnamed ▸ hkeep)] at hfate
  cases hfate

theorem holds_afterSweep_iff (hkeep : job ∈ keep) :
  (m.afterSweep folder keep dryRun).Holds folder.path (folder.fileName job)
    ↔ m.Holds folder.path (folder.fileName job)
  := by
  have hpaths : (m.afterSweep folder keep dryRun).files.paths = m.files.paths.filter _ :=
    Shelf.paths_without _ _
  unfold Holds
  rw [hpaths]
  constructor
  · rintro ⟨path, hpath, hplace⟩
    exact ⟨path, List.mem_of_mem_filter hpath, hplace⟩
  · rintro ⟨path, hpath, hparent, hname⟩
    refine ⟨path, List.mem_filter.2 ⟨hpath, ?_⟩, hparent, hname⟩
    exact decide_eq_true (place_not_mem_deletedPlaces hname hkeep)

/-- Reading at a place is not changed by taking away files at others. -/
theorem read_without (hcase : m.ignoresCase = false) (h : path.place ∉ places) :
  (m.without places).read path = m.read path
  := by
  have hfind : (m.without places).find? path = m.find? path := by
    have hcase' : (m.without places).ignoresCase = false := hcase
    simp only [find?, hcase, hcase']
    exact Shelf.find?_without h
  unfold read
  rw [hfind]
  rfl

/-! ### The second analysis -/

/-- After a sweep the same is answered about a job that was to be kept. -/
theorem answer_afterSweep (hcase : m.ignoresCase = false) (hfolder : m.isFolder folder.path = true)
    (hkeep : job ∈ keep) :
  (m.afterSweep folder keep dryRun).view.answer folder job = m.view.answer folder job
  := by
  apply FileView.answer_congr
  · have hfolder' : (m.afterSweep folder keep dryRun).isFolder folder.path = true := hfolder
    rw [Bool.eq_iff_iff, isListed_iff hfolder, isListed_iff hfolder']
    exact holds_afterSweep_iff hkeep
  · intro hlisted
    obtain ⟨path, -, -, hname⟩ := (isListed_iff hfolder).1 hlisted
    apply read_without hcase
    exact place_not_mem_deletedPlaces (JobFolder.fileNameText?_jobPath hname) hkeep

/-- A sweep that keeps what the analysis of a job reached leaves the analysis as it was. -/
theorem analyze_afterSweep (hcase : m.ignoresCase = false)
    (hfolder : m.isFolder folder.path = true)
    (hkeep : keep = (m.view.analyze folder root).reachable) :
  (m.afterSweep folder keep dryRun).view.analyze folder root = m.view.analyze folder root
  := by
  apply FileView.analyze_congr
  intro job hjob
  apply answer_afterSweep hcase hfolder
  rw [hkeep]
  exact hjob

/-- A sweep that keeps a starting job leaves it the starting job of the same inputs. -/
theorem resolveRoot_afterSweep (h : m.view.resolveRoot folder input = .ok root)
    (hkeep : root ∈ keep) :
  (m.afterSweep folder keep dryRun).view.resolveRoot folder input = .ok root
  := by
  obtain ⟨hinput, hstem, hfolder, hholds⟩ := resolveRoot_view_iff.1 h
  exact resolveRoot_view_iff.2 ⟨hinput, hstem, hfolder, (holds_afterSweep_iff hkeep).2 hholds⟩

/-! ### The second sweep -/

/-- The files that are named after jobs and left are those that were not taken away. -/
theorem plan_without (m : Memory) (folder : JobFolder) (places : List Place) :
  (m.without places).plan folder = (m.plan folder).filter fun e => e.path.place ∉ places
  := by
  have hpaths : (m.without places).files.paths = m.files.paths.filter _ :=
    Shelf.paths_without _ _
  unfold plan
  rw [hpaths, List.filter_filter, List.filterMap_filter, List.filterMap_filter,
    List.filter_filterMap]
  apply List.filterMap_congr
  intro path _
  cases hentry : SweepEntry.ofPath? folder path with
  | none => simp
  | some e =>
    obtain ⟨rfl, -, -⟩ := SweepEntry.ofPath?_eq_some_iff.1 hentry
    by_cases hparent : e.path.parent? = some folder.path.place
    · simp [hparent, Option.filter]
    · simp [hparent]

/-- Entries of a folder at one place are the same. -/
theorem eq_of_mem_plan {e' : SweepEntry} (he : e ∈ m.plan folder) (he' : e' ∈ m.plan folder)
    (hplace : e.path.place = e'.path.place) :
  e = e'
  := List.inj_on_of_nodup_map (List.pairwise_map.2 plan_distinct) he he' hplace

/-- Of the files that are named after jobs a sweep leaves those that it does not delete. -/
theorem plan_afterSweep (m : Memory) (folder : JobFolder) (keep : List JobName) (dryRun : Bool) :
  (m.afterSweep folder keep dryRun).plan folder
    = (m.plan folder).filter fun e => m.fateOf keep dryRun e.job e.path ≠ .deleted
  := by
  rw [afterSweep, plan_without]
  apply List.filter_congr
  intro e he
  rw [decide_eq_decide, mem_deletedPlaces, not_iff_not]
  constructor
  · rintro ⟨e', he', hfate, hplace⟩
    rw [eq_of_mem_plan he he' hplace.symm]
    exact hfate
  · intro hfate
    exact ⟨e, he, hfate, rfl⟩

/-- A sweep that is not a dry run keeps a file, deletes it or fails to. -/
theorem fateOf_ne_deleted :
  decide (m.fateOf keep false job path ≠ .deleted)
    = (m.fateOf keep false job path matches .kept | .failed _)
  := by
  unfold fateOf
  by_cases hkeep : job ∈ keep
  · simp [hkeep]
  · by_cases hlocked : path.place ∈ m.locked
    · simp [hkeep, hlocked]
    · simp [hkeep, hlocked]

/-- After a sweep nothing is left for another one to delete. -/
theorem deletedPlaces_afterSweep (m : Memory) (folder : JobFolder) (keep : List JobName)
    (dryRun : Bool) :
  (m.afterSweep folder keep dryRun).deletedPlaces keep dryRun
    ((m.afterSweep folder keep dryRun).plan folder) = []
  := by
  have hfates : (m.afterSweep folder keep dryRun).fateOf keep dryRun = m.fateOf keep dryRun := rfl
  rw [deletedPlaces, hfates, plan_afterSweep, List.map_eq_nil_iff, List.filter_eq_nil_iff]
  intro e he
  simpa using (List.mem_filter.1 he).2

/-- A second sweep finds the files that the first one kept or could not delete, treats them
in the same way and changes nothing. -/
theorem sweep_afterSweep (m : Memory) (keep : List JobName) (h : m.isFolder folder.path = true) :
  (m.afterSweep folder keep false).sweep folder keep false
    = (.ok (((m.plan folder).map (m.outcomeOf keep false)).filter fun o =>
          o.fate matches .kept | .failed _),
        m.afterSweep folder keep false)
  := by
  have hfolder : (m.afterSweep folder keep false).isFolder folder.path = true := h
  have houtcomes : (m.afterSweep folder keep false).outcomeOf keep false
      = m.outcomeOf keep false := rfl
  rw [sweep_of_isFolder hfolder, deletedPlaces_afterSweep, without_nil, plan_afterSweep,
    houtcomes, List.filter_map]
  congr 3
  apply List.filter_congr
  intro e _
  exact fateOf_ne_deleted

/-! ### The second run -/

/-- After a run that is not a dry run, a second one with the same input resolves the same
starting job, and the analysis of that job has the same tree, problems and names.  The
outcomes of the second run are those of the first one that say that a file was kept or
could not be deleted, in the same order, and the store is not changed any more. -/
theorem prune_again (m : Memory) (hcase : m.ignoresCase = false) (folder : JobFolder)
    (input : String) (root : JobName) (h : m.view.resolveRoot folder input = .ok root) :
  ∃ outcomes m', m.prune folder input false = (.ok outcomes, m')
    ∧ m'.view.resolveRoot folder input = .ok root
    ∧ (m'.view.analyze folder root).tree = (m.view.analyze folder root).tree
    ∧ (m'.view.analyze folder root).problems = (m.view.analyze folder root).problems
    ∧ (m'.view.analyze folder root).reachable = (m.view.analyze folder root).reachable
    ∧ m'.prune folder input false
      = (.ok (outcomes.filter fun o => o.fate matches .kept | .failed _), m')
  := by
  obtain ⟨-, -, hfolder, -⟩ := resolveRoot_view_iff.1 h
  generalize hkeep : (m.view.analyze folder root).reachable = keep
  have hroot : root ∈ keep := hkeep ▸ FileView.root_mem_reachable
  have hresolve : (m.afterSweep folder keep false).view.resolveRoot folder input = .ok root :=
    resolveRoot_afterSweep h hroot
  have hanalysis : (m.afterSweep folder keep false).view.analyze folder root
      = m.view.analyze folder root := analyze_afterSweep hcase hfolder hkeep.symm
  refine ⟨(m.plan folder).map (m.outcomeOf keep false), m.afterSweep folder keep false,
    ?_, hresolve, ?_, ?_, ?_, ?_⟩
  · rw [prune_of_ok h, hkeep, sweep_of_isFolder hfolder]
    rfl
  · rw [hanalysis]
  · rw [hanalysis]
  · rw [hanalysis, hkeep]
  · rw [prune_of_ok hresolve, hanalysis, hkeep]
    exact sweep_afterSweep m keep hfolder

/-- A store with two jobs, the first of which refers to the second, and two files of jobs
that are not reached, one of them locked. -/
def withLeftovers : Memory :=
  (((withCaller [0x41]).add (samplePath (Text.toBytes "OLD")) []).add
    (samplePath (Text.toBytes "STUCK")) (Text.toBytes "CALL JOB:A")).lock
      (samplePath (Text.toBytes "STUCK"))

/-- A first run deletes a file and a second one changes nothing. -/
theorem prune_withLeftovers :
  withLeftovers.ignoresCase = false
    ∧ withLeftovers.view.resolveRoot sampleFolder "A" = .ok ⟨"A"⟩
    ∧ ∃ outcomes m', withLeftovers.prune sampleFolder "A" false = (.ok outcomes, m')
      ∧ (∃ o ∈ outcomes, o.path = samplePath (Text.toBytes "OLD") ∧ o.fate = .deleted)
      ∧ m'.view.resolveRoot sampleFolder "A" = .ok ⟨"A"⟩
      ∧ (m'.view.analyze sampleFolder ⟨"A"⟩).tree
        = (withLeftovers.view.analyze sampleFolder ⟨"A"⟩).tree
      ∧ m'.prune sampleFolder "A" false
        = (.ok (outcomes.filter fun o => o.fate matches .kept | .failed _), m')
  := by
  have hresolve : withLeftovers.view.resolveRoot sampleFolder "A" = .ok ⟨"A"⟩ := by
    apply resolveRoot_view_iff.2
    exact ⟨by decide, by decide, by decide, samplePath [0x41], by decide, by decide, by decide⟩
  obtain ⟨outcomes, m', hprune, hresolve', htree, -, -, hprune'⟩ :=
    prune_again withLeftovers rfl sampleFolder "A" ⟨"A"⟩ hresolve
  refine ⟨rfl, hresolve, outcomes, m', hprune, ?_, hresolve', htree, hprune'⟩
  have hnot : ⟨"OLD"⟩ ∉ (withLeftovers.view.analyze sampleFolder ⟨"A"⟩).reachable := by
    intro hmem
    rcases FileView.eq_or_eq_of_mem_reachable rfl rfl hmem with h | h
    · exact absurd h (by decide)
    · exact absurd h (by decide)
  rw [prune_of_ok hresolve, sweep_of_isFolder (by decide)] at hprune
  generalize (withLeftovers.view.analyze sampleFolder ⟨"A"⟩).reachable = keep at *
  cases hprune
  have hentry : ⟨"OLD.JBI", samplePath (Text.toBytes "OLD"), ⟨"OLD"⟩⟩
      ∈ withLeftovers.plan sampleFolder := by decide
  exact ⟨_, List.mem_map_of_mem hentry, rfl, if_neg hnot⟩

end Memory

end RobotJobs
