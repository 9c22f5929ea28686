import RobotJobs.Proofs.Call.Agreement
import RobotJobs.Proofs.Call.Listed
import RobotJobs.Proofs.Call.Tree
import RobotJobs.Proofs.Path.Shown
import RobotJobs.Proofs.Storage.Shelf

/-!
# Analyses without regard to letter case

A store may look files up with or without regard to letter case.  An analysis only reads
the files of jobs that are listed under exactly the name of the job's file.  If the files of
the folder are spelled plainly and no two paths agree up to case (`Memory.PlainlySpelled`),
then such a file is stored under the very path that is read, and no other file can be found
in its place (`Memory.read_withCase`).  So the look-up makes no difference, and a job that
has a file up to case only is neither read nor expanded (`Memory.analyze_withCase`).
-/

namespace RobotJobs

namespace Memory

/-- The store in which letter case is ignored or not. -/
def withCase (m : Memory) (ignored : Bool) : Memory :=
  { m with ignoresCase := ignored }

/-- The folder is there, every file in it is stored under the path of the folder joined with
a name that is a text, and no two stored paths agree up to letter case. -/
structure PlainlySpelled (m : Memory) (folder : JobFolder) : Prop where
  present : m.isFolder folder.path = true
  spelled : ∀ path ∈ m.files.paths, path.parent? = some folder.path.place →
    ∃ name : String, path.fileName? = some (Text.toBytes name)
      ∧ path = folder.path.join (.ofString name)
  distinct : ∀ path ∈ m.files.paths, ∀ path' ∈ m.files.paths,
    Text.sameLetters path.display path'.display = true → path = path'

/-- Some file in the folder has the name of a job's file up to letter case, but none has
exactly that name. -/
structure OnlyUpToCase (m : Memory) (folder : JobFolder) (job : JobName) : Prop where
  similar : ∃ path ∈ m.files.paths, path.parent? = some folder.path.place
    ∧ ∃ name, path.fileNameText? = some name
      ∧ Text.sameLetters name (folder.fileName job) = true
  not_exact : ¬ m.Holds folder.path (folder.fileName job)

variable {m : Memory} {folder : JobFolder} {job job' root : JobName} {path : Path}
  {bytes : List UInt8} {ignored : Bool} {name : String}

/-! ### Reading a listed file -/

theorem PlainlySpelled.withCase (h : m.PlainlySpelled folder) (ignored : Bool) :
  (m.withCase ignored).PlainlySpelled folder
  := ⟨h.present, h.spelled, h.distinct⟩

/-- The file that is listed for a job is stored under the path of the job. -/
theorem PlainlySpelled.eq_jobPath (h : m.PlainlySpelled folder) (hpath : path ∈ m.files.paths)
    (hparent : path.parent? = some folder.path.place)
    (hname : path.fileNameText? = some (folder.fileName job)) :
  path = folder.jobPath job
  := by
  obtain ⟨name, hbytes, hspelled⟩ := h.spelled path hpath hparent
  rw [Path.fileNameText?, hbytes, Option.map_some, Text.ofBytes_toBytes, Option.some.injEq] at hname
  rw [hspelled, hname]
  rfl

/-- A stored file is found under its path, whether letter case is ignored or not. -/
theorem PlainlySpelled.find?_eq_some (h : m.PlainlySpelled folder)
    (hstored : (path, bytes) ∈ m.files.entries) :
  m.find? path = some bytes
  := by
  unfold find?
  split
  · have hfound : (m.files.entries.find? fun e =>
        Text.sameLetters e.1.display path.display).isSome := by
      rw [List.find?_isSome]
      exact ⟨(path, bytes), hstored, Text.sameLetters_self _⟩
    obtain ⟨e, he⟩ := Option.isSome_iff_exists.1 hfound
    have hmem := List.mem_of_find?_eq_some he
    have hagree : Text.sameLetters e.1.display path.display = true := by
      simpa using List.find?_some he
    have hsame : e.1 = path := h.distinct e.1 (Shelf.mem_paths_iff.2 ⟨e.2, hmem⟩) path
      (Shelf.mem_paths_iff.2 ⟨bytes, hstored⟩) hagree
    rw [he, Shelf.eq_of_place_eq hmem hstored (congrArg Path.place hsame)]
    rfl
  · exact Shelf.find?_eq_some_iff.2 ⟨path, hstored, rfl⟩

@[simp]
theorem fileNames?_withCase (m : Memory) (ignored : Bool) (path : Path) :
  (m.withCase ignored).view.fileNames? path = m.view.fileNames? path
  := rfl

/-- What comes out of reading the file of a listed job does not depend on whether letter case
is ignored. -/
theorem PlainlySpelled.read_withCase (h : m.PlainlySpelled folder)
    (hlisted : FileView.isListed (m.view.fileNames? folder.path) (folder.fileName job) = true)
    (ignored : Bool) :
  (m.withCase ignored).read (folder.jobPath job) = m.read (folder.jobPath job)
  := by
  obtain ⟨path, hpath, hparent, hname⟩ := (isListed_iff h.present).1 hlisted
  obtain ⟨bytes, hstored⟩ := Shelf.mem_paths_iff.1 hpath
  rw [← h.eq_jobPath hpath hparent hname]
  have hfind : (m.withCase ignored).find? path = m.find? path := by
    rw [h.find?_eq_some hstored, (h.withCase ignored).find?_eq_some hstored]
  simp only [read, hfind]
  rfl

/-- The analysis of a job does not depend on whether letter case is ignored. -/
theorem PlainlySpelled.analyze_eq (h : m.PlainlySpelled folder) (ignored : Bool)
    (root : JobName) :
  (m.withCase ignored).view.analyze folder root = m.view.analyze folder root
  := by
  apply FileView.analyze_congr
  intro job _
  apply FileView.answer_congr
  · rw [fileNames?_withCase]
  · intro hlisted
    exact h.read_withCase hlisted ignored

/-- A starting job is found among the listed files alone. -/
theorem resolveRoot_withCase (m : Memory) (folder : JobFolder) (ignored : Bool)
    (input : String) :
  (m.withCase ignored).view.resolveRoot folder input = m.view.resolveRoot folder input
  := by
  unfold FileView.resolveRoot
  rw [fileNames?_withCase]

/-! ### Jobs without a file of exactly their name -/

theorem OnlyUpToCase.withCase (h : m.OnlyUpToCase folder job) (ignored : Bool) :
  (m.withCase ignored).OnlyUpToCase folder job
  := ⟨h.similar, h.not_exact⟩

/-- A name that agrees with the name of a file up to letter case holds no slash. -/
theorem OnlyUpToCase.slash_not_mem (h : m.OnlyUpToCase folder job) :
  Path.slash ∉ Text.toBytes (folder.fileName job)
  := by
  obtain ⟨path, -, -, name, hname, hsame⟩ := h.similar
  intro hslash
  apply (Path.isName_of_fileNameText? hname).no_slash
  rw [Path.slash_mem_toBytes_iff] at hslash ⊢
  rw [Text.sameLetters_comm] at hsame
  exact Text.mem_of_sameLetters (by decide) (by decide) hsame hslash

/-- A job with a file of exactly its name has another path than a job without one. -/
theorem OnlyUpToCase.jobPath_ne (h : m.OnlyUpToCase folder job)
    (hexact : m.Holds folder.path (folder.fileName job')) :
  folder.jobPath job' ≠ folder.jobPath job
  := by
  intro hsame
  have ⟨path, _, _, hname⟩ := hexact
  have hbytes := Path.join_right_cancel
    (Path.isAbsolute_eq_false (Path.isName_of_fileNameText? hname).no_slash)
    (Path.isAbsolute_eq_false h.slash_not_mem) hsame
  have hfileName : folder.fileName job' = folder.fileName job :=
    Function.LeftInverse.injective Text.ofBytes_toBytes (congrArg Path.bytes hbytes)
  apply h.not_exact
  rw [← hfileName]
  exact hexact

theorem OnlyUpToCase.answer_eq (hfolder : m.isFolder folder.path = true)
    (h : m.OnlyUpToCase folder job) :
  m.view.answer folder job = .error (folder.missing job)
  := by
  have hunlisted : FileView.isListed (m.view.fileNames? folder.path) (folder.fileName job)
      = false := by
    rw [← Bool.not_eq_true, isListed_iff hfolder]
    exact h.not_exact
  unfold FileView.answer FileView.callsOf
  split
  · rfl
  · rw [hunlisted]
    rfl

/-- Whatever came out of reading the path of a job without a file of exactly its name, the
analysis would be the same. -/
theorem OnlyUpToCase.analyze_eq_of_read_eq (hfolder : m.isFolder folder.path = true)
    (h : m.OnlyUpToCase folder job) (view : FileView)
    (hlist : view.list folder.path = m.view.list folder.path)
    (hread : ∀ path, path ≠ folder.jobPath job → view.read path = m.view.read path)
    (root : JobName) :
  view.analyze folder root = m.view.analyze folder root
  := by
  have hnames : view.fileNames? folder.path = m.view.fileNames? folder.path := by
    rw [FileView.fileNames?, FileView.fileNames?, hlist]
  apply FileView.analyze_congr
  intro job' _
  apply FileView.answer_congr
  · rw [hnames]
  · intro hlisted
    apply hread
    exact h.jobPath_ne ((isListed_iff hfolder).1 hlisted)

/-- A job without a file of exactly its name is no starting job. -/
theorem OnlyUpToCase.resolveRoot_ne (h : m.OnlyUpToCase folder job) (input : String) :
  m.view.resolveRoot folder input ≠ .ok job
  := by
  intro hresolve
  obtain ⟨-, -, -, hexact⟩ := resolveRoot_view_iff.1 hresolve
  exact h.not_exact hexact

/-- Let the files of a folder be spelled plainly.  Then the analysis of every job and the
starting job of every input are the same whether letter case is ignored or not.  Both ways, a
job that has a file up to letter case only has no calls wherever it stands in an analysis,
its path is not read, since the analysis would be the same whatever came out of that, and no
input names it as the starting job. -/
theorem analyze_withCase (m : Memory) (folder : JobFolder) (h : m.PlainlySpelled folder) :
  (∀ root, (m.withCase true).view.analyze folder root
      = (m.withCase false).view.analyze folder root)
    ∧ (∀ input, (m.withCase true).view.resolveRoot folder input
      = (m.withCase false).view.resolveRoot folder input)
    ∧ ∀ ignored job, m.OnlyUpToCase folder job →
      (∀ root below,
          (job, below) ∈ ((m.withCase ignored).view.analyze folder root).tree.nodes →
            below = .none)
        ∧ (∀ view : FileView, view.list folder.path = (m.withCase ignored).list folder.path →
            (∀ path, path ≠ folder.jobPath job →
              view.read path = (m.withCase ignored).read path) →
            ∀ root, view.analyze folder root = (m.withCase ignored).view.analyze folder root)
        ∧ ∀ input, (m.withCase ignored).view.resolveRoot folder input ≠ .ok job
  := by
  refine ⟨?_, ?_, ?_⟩
  · intro root
    rw [h.analyze_eq, h.analyze_eq]
  · intro input
    rw [resolveRoot_withCase, resolveRoot_withCase]
  · intro ignored job hjob
    have hjob' := hjob.withCase ignored
    have hpresent := (h.withCase ignored).present
    refine ⟨?_, ?_, ?_⟩
    · intro root below hnode
      exact FileView.eq_none_of_mem_nodes (hjob'.answer_eq hpresent) hnode
    · intro view hlist hread root
      exact hjob'.analyze_eq_of_read_eq hpresent view hlist hread root
    · exact hjob'.resolveRoot_ne

/-- A store with three jobs in the folder `/jobs`, the first of which refers to the second one
in small letters. -/
def withSmallLetters : Memory :=
  ((({} : Memory).add (samplePath (Text.toBytes "MAIN")) (Text.toBytes "CALL JOB:pick")).add
    (samplePath (Text.toBytes "PICK")) (Text.toBytes "CALL JOB:GRIP")).add
      (samplePath (Text.toBytes "GRIP")) []

theorem plainlySpelled_withSmallLetters :
  withSmallLetters.PlainlySpelled sampleFolder
  := by
  constructor
  case present => decide
  case spelled =>
    intro path hpath _
    simp only [show withSmallLetters.files.paths = [samplePath (Text.toBytes "GRIP"),
      samplePath (Text.toBytes "MAIN"), samplePath (Text.toBytes "PICK")] by decide,
      List.mem_cons, List.not_mem_nil, or_false] at hpath
    rcases hpath with rfl | rfl | rfl
    · exact ⟨"GRIP.JBI", by decide⟩
    · exact ⟨"MAIN.JBI", by decide⟩
    · exact ⟨"PICK.JBI", by decide⟩
  case distinct => decide

theorem onlyUpToCase_withSmallLetters :
  withSmallLetters.OnlyUpToCase sampleFolder ⟨"pick"⟩
  := by
  constructor
  case similar =>
    exact ⟨samplePath (Text.toBytes "PICK"), by decide, by decide, "PICK.JBI", by decide⟩
  case not_exact =>
    rintro ⟨path, hpath, -, hname⟩
    revert path
    decide

/-- A store that ignores letter case would read a file for the job in small letters, and the
analysis does not. -/
theorem analyze_withSmallLetters :
  (withSmallLetters.withCase true).read (sampleFolder.jobPath ⟨"pick"⟩)
      = .ok (Text.toBytes "CALL JOB:GRIP")
    ∧ (withSmallLetters.withCase true).view.analyze sampleFolder ⟨"MAIN"⟩
      = (withSmallLetters.withCase false).view.analyze sampleFolder ⟨"MAIN"⟩
    ∧ ∀ below, (⟨"pick"⟩, below) ∈ ((withSmallLetters.withCase true).view.analyze sampleFolder
        ⟨"MAIN"⟩).tree.nodes → below = .none
  := by
  obtain ⟨hsame, -, hcase⟩ := analyze_withCase _ _ plainlySpelled_withSmallLetters
  refine ⟨rfl, hsame _, ?_⟩
  exact (hcase true _ onlyUpToCase_withSmallLetters).1 _

end Memory

end RobotJobs
