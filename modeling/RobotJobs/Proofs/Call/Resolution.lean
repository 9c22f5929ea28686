import Mathlib.Data.String.Basic
import Mathlib.Order.Bounds.Basic
import RobotJobs.Proofs.Call.Root
import RobotJobs.Proofs.Job.Folder

/-!
# What an input comes to

An input is resolved by the name of a job's file, a sweep goes by the job that a file is named
after, and both read the same folder.  `FileView.Resolves` says what becomes of a name in terms
of the sweep: it is a starting job if the folder shows a file of the job, and the three ways in
which it can fail exclude each other.  The answer to an input is the one that its trimmed text
resolves to (`FileView.resolveRoot_resolves`).
-/

namespace RobotJobs

/-- What is found first in an ordered list is the least that can be found. -/
theorem isLeast_of_find?_eq_some {names : List String} {p : String → Bool} {name : String}
    (h : names.Pairwise (· ≤ ·)) (hfound : names.find? p = some name) :
  IsLeast {other | other ∈ names ∧ p other = true} name
  := by
  obtain ⟨hname, before, after, rfl, hbefore⟩ := List.find?_eq_some_iff_append.1 hfound
  constructor
  · exact ⟨by simp, hname⟩
  · rintro other ⟨hother, hp⟩
    have hafter := (List.pairwise_cons.1 (List.pairwise_append.1 h).2.1).1
    rcases List.mem_append.1 hother with hother | hother
    · have := hbefore other hother
      simp [hp] at this
    · rcases List.mem_cons.1 hother with rfl | hother
      · apply le_refl
      · apply hafter other hother

namespace FileView

variable {view : FileView} {folder : JobFolder} {name : JobName} {fileName : String} {path : Path}
  {answer answer' : Except RunError JobName}

/-- A folder can be listed and shows a file under a name. -/
def ShowsName (view : FileView) (folder : Path) (fileName : String) : Prop :=
  ∃ paths, view.list folder = .ok paths ∧ ∃ path ∈ paths, path.fileNameText? = some fileName

/-- A job folder shows a file that is named after a job. -/
def ShowsJob (view : FileView) (folder : JobFolder) (job : JobName) : Prop :=
  ∃ fileName, view.ShowsName folder.path fileName ∧ folder.jobOf? fileName = some job

/-- The shown names that are the name of a job's file up to letter case. -/
def similarNames (view : FileView) (folder : JobFolder) (job : JobName) : Set String :=
  {fileName | view.ShowsName folder.path fileName
    ∧ Text.sameLetters fileName (folder.fileName job) = true}

/-- What the name of a starting job comes to: no name at all, a job that the folder shows, a
job of which it only shows files up to letter case, or none of these. -/
inductive Resolves (view : FileView) (folder : JobFolder) (name : JobName) :
    Except RunError JobName → Prop where
  | noName (empty : name.text = "") :
    Resolves view folder name (.error .noJobName)
  | found (nonempty : name.text ≠ "") (stem : name.isFileStem = true)
      (shown : view.ShowsJob folder name) :
    Resolves view folder name (.ok name)
  | caseDiffers (nonempty : name.text ≠ "") (stem : name.isFileStem = true)
      (hidden : ¬ view.ShowsJob folder name) (listed : String)
      (least : IsLeast (view.similarNames folder name) listed) :
    Resolves view folder name (.error (.rootCaseDiffers name.text listed))
  | missing (nonempty : name.text ≠ "")
      (none : name.isFileStem = true → view.similarNames folder name = ∅) :
    Resolves view folder name (.error (.rootNotFound (folder.jobPath name)))

/-- A job is shown exactly if the name of its file is. -/
theorem showsJob_iff :
  view.ShowsJob folder name ↔ view.ShowsName folder.path (folder.fileName name)
  := by
  simp [ShowsJob, JobFolder.jobOf?_eq_some_iff]

theorem mem_getD_fileNames_iff :
  fileName ∈ (view.fileNames? path).getD [] ↔ view.ShowsName path fileName
  := by
  cases hlist : view.list path with
  | error fault => simp [fileNames?, ShowsName, hlist]
  | ok paths => simp [mem_fileNames hlist, ShowsName, hlist]

/-- The names of the files in a folder are in order. -/
theorem pairwise_getD_fileNames (view : FileView) (path : Path) :
  ((view.fileNames? path).getD []).Pairwise (· ≤ ·)
  := by
  cases hlist : view.list path with
  | error fault => simp [fileNames?, hlist]
  | ok paths =>
    simp only [fileNames?, hlist, Option.getD_some]
    have hsorted := @List.pairwise_mergeSort String (fun a b => decide (a ≤ b))
      (fun a b c => by simpa using String.le_trans)
      (fun a b => by simpa using String.le_total a b) (paths.filterMap Path.fileNameText?).eraseDups
    simpa using hsorted

/-- The name of the file of a job that is shown is similar to itself. -/
theorem ShowsJob.mem_similarNames (h : view.ShowsJob folder name) :
  folder.fileName name ∈ view.similarNames folder name
  := ⟨showsJob_iff.1 h, Text.sameLetters_self _⟩

/-- A name comes to one answer only. -/
theorem Resolves.unique (h : view.Resolves folder name answer)
    (h' : view.Resolves folder name answer') :
  answer = answer'
  := by
  have hsimilar : view.ShowsJob folder name → view.similarNames folder name ≠ ∅ := by
    intro hshown
    apply Set.Nonempty.ne_empty ⟨_, hshown.mem_similarNames⟩
  cases h with
  | noName empty =>
    cases h' with
    | noName => rfl
    | found nonempty | caseDiffers nonempty | missing nonempty => exact absurd empty nonempty
  | found nonempty stem shown =>
    cases h' with
    | noName empty => exact absurd empty nonempty
    | found => rfl
    | caseDiffers _ _ hidden => exact absurd shown hidden
    | missing _ nothing => exact absurd (nothing stem) (hsimilar shown)
  | caseDiffers nonempty stem hidden listed least =>
    cases h' with
    | noName empty => exact absurd empty nonempty
    | found _ _ shown => exact absurd shown hidden
    | caseDiffers _ _ _ listed' least' => rw [least.unique least']
    | missing _ nothing => exact absurd (nothing stem) (Set.Nonempty.ne_empty ⟨_, least.1⟩)
  | missing nonempty nothing =>
    cases h' with
    | noName empty => exact absurd empty nonempty
    | found _ stem shown => exact absurd (nothing stem) (hsimilar shown)
    | caseDiffers _ stem _ listed least =>
      exact absurd (nothing stem) (Set.Nonempty.ne_empty ⟨_, least.1⟩)
    | missing => rfl

/-- What is found among the listed names is the least similar one. -/
theorem isLeast_similarNames {listed : String}
    (h : ((view.fileNames? folder.path).getD []).find?
      (Text.sameLetters · (folder.fileName name)) = some listed) :
  IsLeast (view.similarNames folder name) listed
  := by
  have hleast := isLeast_of_find?_eq_some (pairwise_getD_fileNames view folder.path) h
  simp only [mem_getD_fileNames_iff] at hleast
  apply hleast

/-- An input comes to what its trimmed text resolves to. -/
theorem resolves_resolveRoot (view : FileView) (folder : JobFolder) (input : String) :
  view.Resolves folder ⟨Text.trimmed input⟩ (view.resolveRoot folder input)
  := by
  unfold resolveRoot
  cases hinput : JobName.ofInput input with
  | error e =>
    by_cases hempty : Text.trimmed input = ""
    · obtain rfl : .noJobName = e := by simpa [JobName.ofInput, hempty] using hinput
      apply Resolves.noName hempty
    · simp [JobName.ofInput, hempty] at hinput
  | ok root =>
    obtain ⟨htext, hne⟩ := ofInput_eq_ok_iff.1 hinput
    obtain rfl : root = ⟨Text.trimmed input⟩ := by rw [← htext]
    dsimp only
    split
    · next hstem =>
      apply Resolves.missing hne
      intro hstem'
      simp [hstem'] at hstem
    · next hstem =>
      have hstem' : JobName.isFileStem ⟨Text.trimmed input⟩ = true := by simpa using hstem
      split
      · next hlisted =>
        apply Resolves.found hne hstem'
        apply showsJob_iff.2
        apply mem_getD_fileNames_iff.1
        simpa using hlisted
      · next hlisted =>
        split
        · next listed hfound =>
          apply Resolves.caseDiffers hne hstem' _ listed (isLeast_similarNames hfound)
          rw [showsJob_iff, ← mem_getD_fileNames_iff]
          simpa using hlisted
        · next hnone =>
          apply Resolves.missing hne
          intro _
          apply Set.eq_empty_of_forall_notMem
          rintro fileName ⟨hshown, hsame⟩
          have := List.find?_eq_none.1 hnone fileName (mem_getD_fileNames_iff.2 hshown)
          exact this hsame

/-- The answer to an input is the one that its trimmed text resolves to.  So it is a starting
job exactly if the trimmed text is not empty, holds no slash, and names the job of a file that
the folder shows; and it depends on the trimmed text alone. -/
theorem resolveRoot_resolves (view : FileView) (folder : JobFolder) (input : String) :
  (∀ answer, view.resolveRoot folder input = answer
      ↔ view.Resolves folder ⟨Text.trimmed input⟩ answer)
    ∧ (∀ root, view.resolveRoot folder input = .ok root
      ↔ root.text = Text.trimmed input ∧ root.text ≠ ""
        ∧ ('/' ∉ root.text.toList ∧ '\\' ∉ root.text.toList) ∧ view.ShowsJob folder root)
    ∧ ∀ input', Text.trimmed input' = Text.trimmed input →
      view.resolveRoot folder input' = view.resolveRoot folder input
  := by
  have hiff (answer : Except RunError JobName) : view.resolveRoot folder input = answer
      ↔ view.Resolves folder ⟨Text.trimmed input⟩ answer := by
    constructor
    · rintro rfl
      apply resolves_resolveRoot
    · apply Resolves.unique (resolves_resolveRoot view folder input)
  refine ⟨hiff, ?_, ?_⟩
  · intro root
    rw [resolveRoot_eq_ok_iff, JobName.isFileStem_iff, showsJob_iff, and_assoc]
    rfl
  · intro input' hsame
    symm
    apply (hiff _).2
    rw [← hsame]
    apply resolves_resolveRoot

end FileView

end RobotJobs
