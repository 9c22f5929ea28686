import RobotJobs.Proofs.Call.Problems
import RobotJobs.Storage.Memory

/-!
# Starting jobs

An input names a starting job if the trimmed input may be the stem of a file and the file
of that name is listed (`resolveRoot_eq_ok_iff`).  Being listed is not being readable: the
listing shows names as text, and the file is read by the path that the text gives.  The
analysis of a starting job has no problem with that job exactly if the file at that path
can be read, and if it has one, the job is all that it reaches (`analyze_resolved_iff`).
-/

namespace RobotJobs

namespace FileView

variable {view : FileView} {folder : JobFolder} {input : String} {root : JobName}

/-- An input is the starting job of its trimmed text, unless that is empty. -/
theorem ofInput_eq_ok_iff :
  JobName.ofInput input = .ok root ↔ root.text = Text.trimmed input ∧ root.text ≠ ""
  := by
  obtain ⟨text⟩ := root
  by_cases hempty : Text.trimmed input = ""
  · simp only [JobName.ofInput, hempty, if_true]
    constructor
    · exact fun h => nomatch h
    · rintro ⟨rfl, hne⟩
      exact absurd rfl hne
  · simp only [JobName.ofInput, hempty, if_false, Except.ok.injEq, JobName.mk.injEq]
    constructor
    · rintro rfl
      exact ⟨rfl, hempty⟩
    · rintro ⟨rfl, -⟩
      rfl

/-- An input names a starting job exactly if its trimmed text is the job's name, is not
empty and holds no slash, and the folder can be listed and lists the job's file. -/
theorem resolveRoot_eq_ok_iff :
  view.resolveRoot folder input = .ok root
    ↔ (root.text = Text.trimmed input ∧ root.text ≠ "") ∧ root.isFileStem = true
      ∧ ∃ paths, view.list folder.path = .ok paths
        ∧ ∃ path ∈ paths, path.fileNameText? = some (folder.fileName root)
  := by
  rw [← ofInput_eq_ok_iff]
  constructor
  · intro h
    unfold resolveRoot at h
    split at h
    · cases h
    · next name hinput =>
      split at h
      · cases h
      · next hstem =>
        dsimp only at h
        split at h
        · next hlisted =>
          cases h
          refine ⟨hinput, by simpa using hstem, ?_⟩
          cases hlist : view.list folder.path with
          | error fault => simp [fileNames?, hlist] at hlisted
          | ok paths =>
            use paths, rfl
            apply (mem_fileNames hlist).1
            simpa using hlisted
        · split at h
          · cases h
          · cases h
  · rintro ⟨hinput, hstem, paths, hlist, hlisted⟩
    have hcontains := (mem_fileNames hlist).2 hlisted
    simp [resolveRoot, hinput, hstem, hcontains]

/-- A starting job can be loaded exactly if its file can be read. -/
theorem loads_iff_of_resolveRoot {bytes : List UInt8}
    (h : view.resolveRoot folder input = .ok root) :
  view.Loads folder root bytes ↔ view.read (folder.jobPath root) = .ok bytes
  := by
  obtain ⟨-, hstem, paths, hlist, hlisted⟩ := resolveRoot_eq_ok_iff.1 h
  constructor
  · exact Loads.read
  · intro hread
    constructor
    · exact JobName.isFileStem_iff.1 hstem
    · intro paths' hlist'
      rw [hlist] at hlist'
      cases hlist'
      exact hlisted
    · exact hread

/-- The analysis of a job whose file cannot be read has a problem with it. -/
theorem exists_problem_of_unread (fault : StorageFault)
    (h : view.read (folder.jobPath root) = .error fault) :
  ∃ p ∈ (view.analyze folder root).problems, p.job = root
  := by
  apply (exists_problem_iff _ _ _ _).2
  use root_mem_reachable
  rintro ⟨bytes, hloads⟩
  rw [hloads.read] at h
  cases h

/-- A job that cannot be loaded reaches only itself. -/
theorem eq_root_of_mem_reachable {name : JobName} (h : ¬ ∃ bytes, view.Loads folder root bytes)
    (hname : name ∈ (view.analyze folder root).reachable) :
  name = root
  := by
  apply mem_of_mem_reachable {name | name = root} rfl _ hname
  rintro job rfl bytes hloads
  exact absurd ⟨bytes, hloads⟩ h

end FileView

namespace Memory

variable {m : Memory} {path : Path} {bytes : List UInt8}

theorem read_eq_ok_iff :
  m.read path = .ok bytes ↔ path.place ∉ m.denied ∧ m.find? path = some bytes
  := by
  unfold read
  by_cases hdenied : path.place ∈ m.denied
  · simp [hdenied]
  · cases m.find? path with
    | none => simp [hdenied]
    | some content => simp [hdenied]

/-- The analysis of a starting job that an input names has no problem with that job exactly
if a file is found at the job's path and the path is not denied to readers.  Then the
analysis has the jobs that the file refers to; otherwise it has only the starting job. -/
theorem analyze_resolved_iff (m : Memory) (folder : JobFolder) (input : String)
    (root : JobName) (h : m.view.resolveRoot folder input = .ok root) :
  ((∀ p ∈ (m.view.analyze folder root).problems, p.job ≠ root)
      ↔ (folder.jobPath root).place ∉ m.denied ∧ (m.find? (folder.jobPath root)).isSome)
    ∧ (∀ bytes, (folder.jobPath root).place ∉ m.denied →
        m.find? (folder.jobPath root) = some bytes →
        ∀ called ∈ Reference.inBytes folder.marker bytes,
          called ∈ (m.view.analyze folder root).reachable)
    ∧ ((∃ p ∈ (m.view.analyze folder root).problems, p.job = root) →
        ∀ name ∈ (m.view.analyze folder root).reachable, name = root)
  := by
  have hloads (bytes : List UInt8) : m.view.Loads folder root bytes
      ↔ (folder.jobPath root).place ∉ m.denied ∧ m.find? (folder.jobPath root) = some bytes :=
    (FileView.loads_iff_of_resolveRoot h).trans read_eq_ok_iff
  have hproblem := FileView.exists_problem_iff m.view folder root root
  refine ⟨?_, ?_, ?_⟩
  · calc (∀ p ∈ (m.view.analyze folder root).problems, p.job ≠ root)
        ↔ ¬ ∃ p ∈ (m.view.analyze folder root).problems, p.job = root := by simp
      _ ↔ ∃ bytes, m.view.Loads folder root bytes := by
          rw [hproblem]
          simp [FileView.root_mem_reachable]
      _ ↔ _ := by
          simp only [hloads, exists_and_left, Option.isSome_iff_exists]
  · intro bytes hdenied hfound called hcalled
    exact FileView.closedUnderCalls_reachable root FileView.root_mem_reachable bytes
      ((hloads bytes).2 ⟨hdenied, hfound⟩) called hcalled
  · intro hexists name hname
    exact FileView.eq_root_of_mem_reachable (hproblem.1 hexists).2 hname

/-- The folder `/jobs`, with the usual extension and marker. -/
def sampleFolder : JobFolder where
  path := .ofString "/jobs"

/-- The path of a file in the folder `/jobs` whose stem is given as bytes. -/
def samplePath (stem : List UInt8) : Path :=
  ⟨Text.toBytes "/jobs/" ++ stem ++ Text.toBytes ".JBI"⟩

/-- A store with two jobs in the folder `/jobs`, the first of which refers to the second;
the stem of its file is given as bytes. -/
def withCaller (stem : List UInt8) : Memory :=
  (({} : Memory).add (samplePath stem) (Text.toBytes "CALL JOB:B")).add
    (samplePath (Text.toBytes "B")) []

/-- The analysis of a job that can be read has no problem with it. -/
theorem analyze_withCaller :
  (withCaller [0x41]).view.resolveRoot sampleFolder "A" = .ok ⟨"A"⟩
    ∧ ∀ p ∈ ((withCaller [0x41]).view.analyze sampleFolder ⟨"A"⟩).problems, p.job ≠ ⟨"A"⟩
  := by
  have h : (withCaller [0x41]).view.resolveRoot sampleFolder "A" = .ok ⟨"A"⟩ := by
    apply FileView.resolveRoot_eq_ok_iff.2
    exact ⟨by decide, by decide, _, rfl, samplePath [0x41], by decide, by decide⟩
  exact ⟨h, (analyze_resolved_iff _ _ _ _ h).1.2 (by decide)⟩

/-- A job can be resolved and still not be read: its file may be denied to readers, or the
name of the file may be no text and only look like that of the job when it is listed. -/
theorem analyze_withCaller_unread :
  (((withCaller [0x41]).deny (samplePath [0x41])).view.resolveRoot sampleFolder "A"
        = .ok ⟨"A"⟩
      ∧ ∃ p ∈ (((withCaller [0x41]).deny (samplePath [0x41])).view.analyze sampleFolder
          ⟨"A"⟩).problems, p.job = ⟨"A"⟩)
    ∧ ((withCaller [0x41, 0xFF]).view.resolveRoot sampleFolder "A\uFFFD" = .ok ⟨"A\uFFFD"⟩
      ∧ ∃ p ∈ ((withCaller [0x41, 0xFF]).view.analyze sampleFolder ⟨"A\uFFFD"⟩).problems,
        p.job = ⟨"A\uFFFD"⟩)
  := by
  refine ⟨⟨?_, ?_⟩, ?_, ?_⟩
  · apply FileView.resolveRoot_eq_ok_iff.2
    exact ⟨by decide, by decide, _, rfl, samplePath [0x41], by decide, by decide⟩
  · exact FileView.exists_problem_of_unread (.denied (samplePath [0x41])) rfl
  · apply FileView.resolveRoot_eq_ok_iff.2
    exact ⟨by decide, by decide, _, rfl, samplePath [0x41, 0xFF], by decide, by decide⟩
  · exact FileView.exists_problem_of_unread (.notFound (.ofString "/jobs/A\uFFFD.JBI")) rfl

end Memory

end RobotJobs
