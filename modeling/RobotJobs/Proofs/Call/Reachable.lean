import Mathlib.Order.Bounds.Basic
import RobotJobs.Call.Analysis
import RobotJobs.Proofs.Call.Closure
import RobotJobs.Proofs.Call.Expansion

/-!
# The jobs that a starting job reaches

A job can be loaded if its file may be named after it, is listed as far as the folder can
be listed, and can be read (`FileView.Loads`).  The names in the analysis of a starting
job are the least set that has the starting job and, with every job that can be loaded,
the jobs that its file refers to (`reachable_isLeast`).
-/

namespace RobotJobs

/-- Sorting names keeps exactly the names that are there. -/
theorem JobName.mem_sorted {names : List JobName} {name : JobName} :
  name ∈ JobName.sorted names ↔ name ∈ names
  := by
  simp [JobName.sorted]

theorem CallTree.mem_reachable {tree : CallTree} {name : JobName} :
  name ∈ tree.reachable ↔ name = tree.root ∨ name ∈ tree.calls.names
  := by
  rw [CallTree.reachable, JobName.mem_sorted, List.mem_cons]

theorem JobName.isFileStem_iff {job : JobName} :
  job.isFileStem = true ↔ '/' ∉ job.text.toList ∧ '\\' ∉ job.text.toList
  := by
  simp [JobName.isFileStem]

namespace FileView

variable {view : FileView} {folder : JobFolder} {job name root : JobName}
  {jobs : List JobName} {bytes : List UInt8}

/-- A job can be loaded: its file may be named after it, is among the files of the folder
unless these cannot be listed, and holds the given bytes. -/
structure Loads (view : FileView) (folder : JobFolder) (job : JobName)
    (bytes : List UInt8) : Prop where
  stem : '/' ∉ job.text.toList ∧ '\\' ∉ job.text.toList
  listed : ∀ paths, view.list folder.path = .ok paths →
    ∃ path ∈ paths, path.fileNameText? = some (folder.fileName job)
  read : view.read (folder.jobPath job) = .ok bytes

/-- A job can be loaded in a traversal that knows a listing: its file may be named after it,
is listed if there is a listing, and holds the given bytes. -/
structure LoadsListed (view : FileView) (folder : JobFolder) (listing : Option (List String))
    (job : JobName) (bytes : List UInt8) : Prop where
  stem : '/' ∉ job.text.toList ∧ '\\' ∉ job.text.toList
  listed : ∀ fileNames, listing = some fileNames → folder.fileName job ∈ fileNames
  read : view.read (folder.jobPath job) = .ok bytes

/-- A set of names has, with every job that can be loaded, the jobs that its file refers
to. -/
def ClosedUnderCalls (view : FileView) (folder : JobFolder) (names : Set JobName) : Prop :=
  ∀ job ∈ names, ∀ bytes, view.Loads folder job bytes →
    ∀ called ∈ Reference.inBytes folder.marker bytes, called ∈ names

/-- What the analysis of a job is told about jobs. -/
def answer (view : FileView) (folder : JobFolder) : CallAnswer :=
  view.callsOf folder (view.fileNames? folder.path)

theorem mem_fileNames {path : Path} {paths : List Path} {fileName : String}
    (h : view.list path = .ok paths) :
  fileName ∈ (view.fileNames? path).getD [] ↔ ∃ p ∈ paths, p.fileNameText? = some fileName
  := by
  simp [fileNames?, h]

/-- A file name counts as there if it is listed, or if nothing can be listed. -/
theorem isListed_fileNames_iff {path : Path} {fileName : String} :
  isListed (view.fileNames? path) fileName = true
    ↔ ∀ paths, view.list path = .ok paths → ∃ p ∈ paths, p.fileNameText? = some fileName
  := by
  cases hlist : view.list path with
  | error fault => simp [fileNames?, hlist, isListed]
  | ok paths => simp [fileNames?, hlist, isListed]

theorem isListed_iff_mem {listing : Option (List String)} {fileName : String} :
  isListed listing fileName = true ↔ ∀ fileNames, listing = some fileNames → fileName ∈ fileNames
  := by
  cases listing with
  | none => simp [isListed]
  | some fileNames => simp [isListed]

/-- The references of a job are followed exactly if the job can be loaded. -/
theorem callsOf_eq_ok_iff {listing : Option (List String)} :
  view.callsOf folder listing job = .ok jobs
    ↔ ∃ bytes, view.LoadsListed folder listing job bytes
      ∧ Reference.inBytes folder.marker bytes = jobs
  := by
  constructor
  · intro h
    unfold callsOf at h
    split at h
    · cases h
    · next hstem =>
      split at h
      · cases h
      · next hlisted =>
        split at h
        · next bytes hread =>
          cases h
          use bytes
          constructor
          · constructor
            · apply JobName.isFileStem_iff.1
              simpa using hstem
            · apply isListed_iff_mem.1
              simpa using hlisted
            · exact hread
          · rfl
        · cases h
  · rintro ⟨bytes, ⟨hstem, hlisted, hread⟩, rfl⟩
    simp [callsOf, JobName.isFileStem_iff.2 hstem, isListed_iff_mem.2 hlisted, hread]

/-- There is a problem with a job exactly if the job cannot be loaded. -/
theorem exists_callsOf_error_iff {listing : Option (List String)} :
  (∃ p, view.callsOf folder listing job = .error p)
    ↔ ¬ ∃ bytes, view.LoadsListed folder listing job bytes
  := by
  constructor
  · rintro ⟨p, hp⟩ ⟨bytes, hloads⟩
    rw [callsOf_eq_ok_iff.2 ⟨bytes, hloads, rfl⟩] at hp
    cases hp
  · intro h
    cases hanswer : view.callsOf folder listing job with
    | error p => exact ⟨p, rfl⟩
    | ok jobs =>
      obtain ⟨bytes, hloads, -⟩ := callsOf_eq_ok_iff.1 hanswer
      exact absurd ⟨bytes, hloads⟩ h

/-- What can be loaded in an analysis is what can be loaded with the files of the folder
listed. -/
theorem loadsListed_fileNames_iff :
  view.LoadsListed folder (view.fileNames? folder.path) job bytes ↔ view.Loads folder job bytes
  := by
  have hlisted := isListed_iff_mem.symm.trans
    (@isListed_fileNames_iff view folder.path (folder.fileName job))
  constructor
  · rintro ⟨hstem, hname, hread⟩
    exact ⟨hstem, hlisted.1 hname, hread⟩
  · rintro ⟨hstem, hname, hread⟩
    exact ⟨hstem, hlisted.2 hname, hread⟩

/-- The analysis follows the references of a job exactly if the job can be loaded. -/
theorem answer_eq_ok_iff :
  view.answer folder job = .ok jobs
    ↔ ∃ bytes, view.Loads folder job bytes ∧ Reference.inBytes folder.marker bytes = jobs
  := by
  simp only [answer, callsOf_eq_ok_iff, loadsListed_fileNames_iff]

/-- The analysis is told of a problem exactly if the job cannot be loaded. -/
theorem exists_answer_error_iff :
  (∃ p, view.answer folder job = .error p) ↔ ¬ ∃ bytes, view.Loads folder job bytes
  := by
  simp only [answer, exists_callsOf_error_iff, loadsListed_fileNames_iff]

theorem callClosed_iff {names : Set JobName} :
  CallClosed (view.answer folder) names ↔ view.ClosedUnderCalls folder names
  := by
  constructor
  · intro h job hjob bytes hloads
    exact h job hjob _ (answer_eq_ok_iff.2 ⟨bytes, hloads, rfl⟩)
  · intro h job hjob jobs hjobs
    obtain ⟨bytes, hloads, rfl⟩ := answer_eq_ok_iff.1 hjobs
    exact h job hjob bytes hloads

/-- The traversal after the analysis of a job. -/
def finalTraversal (view : FileView) (folder : JobFolder) (root : JobName) : Traversal :=
  (view.walk folder root (view.startTraversal folder)).2

theorem not_mem_visited_startTraversal :
  name ∉ (view.startTraversal folder).visited
  := List.not_mem_nil

/-- The analysis of a job visits it, in a traversal that has visited nothing before. -/
theorem visits_analyze (view : FileView) (folder : JobFolder) (root : JobName) :
  Visits (view.answer folder) root (view.startTraversal folder)
    (view.analyze folder root).tree.calls (view.finalTraversal folder root)
  := visits_walk root (view.startTraversal folder)

/-- The nodes of an analysis, the root first, are put into its tree. -/
theorem lays_analyze (view : FileView) (folder : JobFolder) (root : JobName) :
  Traversal.Lays (view.answer folder) (view.startTraversal folder)
    (view.analyze folder root).tree.nodes (view.finalTraversal folder root)
  := (visits_analyze view folder root).lays

/-- The names in the analysis of a job are the names visited by its end. -/
theorem mem_reachable_iff_visited :
  name ∈ (view.analyze folder root).reachable
    ↔ name ∈ (view.finalTraversal folder root).visited
  := by
  rw [Analysis.reachable, CallTree.mem_reachable, (lays_analyze view folder root).visited,
    CallTree.nodes, List.map_cons, Calls.map_fst_nodes, List.mem_cons,
    or_iff_right not_mem_visited_startTraversal]

/-- The names in the analysis of a job are closed under calls. -/
theorem closedUnderCalls_reachable :
  view.ClosedUnderCalls folder {name | name ∈ (view.analyze folder root).reachable}
  := by
  apply callClosed_iff.1
  intro job hjob jobs hjobs called hcalled
  apply mem_reachable_iff_visited.2
  exact (visits_analyze view folder root).visited_closed job (mem_reachable_iff_visited.1 hjob)
    not_mem_visited_startTraversal jobs hjobs called hcalled

/-- A set that has a job and is closed under calls has every name in the analysis of the
job. -/
theorem mem_of_mem_reachable (names : Set JobName) (hroot : root ∈ names)
    (hclosed : view.ClosedUnderCalls folder names)
    (h : name ∈ (view.analyze folder root).reachable) :
  name ∈ names
  := by
  have hvisits := visits_analyze view folder root
  rcases hvisits.visited_of_callClosed (callClosed_iff.2 hclosed) hroot name
      (mem_reachable_iff_visited.1 h) with hname | hname
  · exact absurd hname not_mem_visited_startTraversal
  · exact hname

theorem root_mem_reachable :
  root ∈ (view.analyze folder root).reachable
  := CallTree.mem_reachable.2 (.inl rfl)

/-- The names in the analysis of a job are the least set that has the job and, with every
job that can be loaded, the jobs that its file refers to. -/
theorem reachable_isLeast (view : FileView) (folder : JobFolder) (root : JobName) :
  IsLeast {names : Set JobName | root ∈ names ∧ view.ClosedUnderCalls folder names}
      {name | name ∈ (view.analyze folder root).reachable}
    ∧ (view.analyze folder root).tree.reachable = (view.analyze folder root).reachable
  := by
  constructor
  · constructor
    · exact ⟨root_mem_reachable, closedUnderCalls_reachable⟩
    · rintro names ⟨hroot, hclosed⟩ name hname
      exact mem_of_mem_reachable names hroot hclosed hname
  · rfl

end FileView

end RobotJobs
