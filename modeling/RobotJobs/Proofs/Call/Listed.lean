import RobotJobs.Proofs.Call.Root

/-!
# Listed files in memory

A file in memory is listed in a folder if it is stored directly in it.  So both what counts
as there in an analysis and what names a starting job can be told from the stored paths.
-/

namespace RobotJobs

namespace Memory

variable {m : Memory} {folder : JobFolder} {input : String} {root : JobName} {name : String}

/-- Some file that is stored directly in a folder has the name. -/
def Holds (m : Memory) (folder : Path) (name : String) : Prop :=
  ∃ path ∈ m.files.paths, path.parent? = some folder.place ∧ path.fileNameText? = some name

theorem exists_listed_iff {folder : Path} :
  (∃ paths, m.view.list folder = .ok paths ∧ ∃ path ∈ paths, path.fileNameText? = some name)
    ↔ m.isFolder folder = true ∧ m.Holds folder name
  := by
  have hview : m.view.list folder = m.list folder := rfl
  rw [hview, list]
  split
  · next hfolder => simp [Holds, hfolder, and_assoc]
  · next hfolder => simp [hfolder]

/-- A file name counts as there in a folder that is there if some file in it has the name. -/
theorem isListed_iff {folder : Path} (h : m.isFolder folder = true) :
  FileView.isListed (m.view.fileNames? folder) name = true ↔ m.Holds folder name
  := by
  have hlist : m.view.list folder = .ok _ := if_pos h
  rw [FileView.isListed_fileNames_iff]
  simp only [hlist, Except.ok.injEq, forall_eq', List.mem_filter, decide_eq_true_eq, and_assoc]
  rfl

/-- An input names a starting job exactly if its trimmed text is the job's name, is not
empty and holds no slash, and the folder is there and holds a file of the job. -/
theorem resolveRoot_view_iff :
  m.view.resolveRoot folder input = .ok root
    ↔ (root.text = Text.trimmed input ∧ root.text ≠ "") ∧ root.isFileStem = true
      ∧ m.isFolder folder.path = true ∧ m.Holds folder.path (folder.fileName root)
  := by
  rw [FileView.resolveRoot_eq_ok_iff, exists_listed_iff]

end Memory

end RobotJobs
