import RobotJobs.Job.Folder
import RobotJobs.Proofs.Text.Blank

/-!
# Jobs and their file names

`jobOf?` leads from the name of a file back to the job that the file is named after, for
every extension: a file name belongs to a job exactly if it is the name of the job's file, so
jobs and the names of their files correspond one to one (`JobFolder.jobOf?_fileName_inverse`).
The extension of a folder never begins with a dot, and something is left of an extension
that does not consist of dots only.
-/

namespace RobotJobs

/-! ### Extensions -/

theorem withoutLeadingDots_eq_empty_iff {extension : String} :
  withoutLeadingDots extension = "" ↔ ∀ c ∈ extension.toList, c = '.'
  := by
  rw [← String.toList_inj, withoutLeadingDots, String.toList_ofList, String.toList_empty,
    List.dropWhile_eq_nil_iff]
  simp only [beq_iff_eq]

theorem head?_withoutLeadingDots (extension : String) :
  (withoutLeadingDots extension).toList.head? ≠ some '.'
  := by
  intro h
  have hdropped := List.head?_dropWhile_not (· == '.') extension.toList
  rw [withoutLeadingDots, String.toList_ofList] at h
  rw [h] at hdropped
  cases hdropped

/-- What is left of an extension is more than dots. -/
theorem exists_ne_dot_of_withoutLeadingDots {extension : String}
    (h : withoutLeadingDots extension ≠ "") :
  ∃ c ∈ (withoutLeadingDots extension).toList, c ≠ '.'
  := by
  obtain ⟨c, hmem, hhead⟩ := Text.exists_head?_of_ne_empty h
  use c, hmem
  rintro rfl
  exact head?_withoutLeadingDots extension hhead

/-! ### File names -/

namespace JobFolder

variable {folder : JobFolder} {fileName : String} {job job' : JobName}

theorem toList_fileName (folder : JobFolder) (job : JobName) :
  (folder.fileName job).toList = job.text.toList ++ ['.'] ++ folder.extension.toList
  := by
  simp [JobFolder.fileName, JobName.fileName, String.toList_append]

/-- A file name belongs to a job exactly if it is the name of the job's file. -/
theorem jobOf?_eq_some_iff :
  folder.jobOf? fileName = some job ↔ folder.fileName job = fileName
  := by
  rw [← String.toList_inj, toList_fileName]
  simp only [jobOf?, Option.map_eq_some_iff, Option.bind_eq_some_iff, Text.beforeEnd?_eq_some_iff]
  constructor
  · rintro ⟨stem, ⟨before, hbefore, hstem⟩, rfl⟩
    rw [hbefore, hstem, String.toList_ofList]
  · intro h
    exact ⟨job.text.toList, ⟨_, h.symm, rfl⟩, by rw [String.ofList_toList]⟩

/-- Different jobs have different file names. -/
theorem fileName_injective (h : folder.fileName job = folder.fileName job') :
  job = job'
  := by
  have hjob := jobOf?_eq_some_iff.2 h
  rw [jobOf?_eq_some_iff.2 rfl] at hjob
  exact (Option.some.inj hjob).symm

/-- Whatever the extension is, jobs and the names of their files correspond one to one.  The
name of a job's file leads back to the job, and a file name that leads to a job is the name of
the job's file.  So a file name leads to no job exactly if no job's file has this name. -/
theorem jobOf?_fileName_inverse (folder : JobFolder) :
  (∀ job : JobName, folder.jobOf? (job.fileName folder.extension) = some job)
    ∧ (∀ (fileName : String) (job : JobName), folder.jobOf? fileName = some job →
      job.fileName folder.extension = fileName)
    ∧ ∀ fileName, folder.jobOf? fileName = none
      ↔ ∀ job : JobName, job.fileName folder.extension ≠ fileName
  := by
  refine ⟨?_, ?_, ?_⟩
  · intro job
    apply jobOf?_eq_some_iff.2 rfl
  · intro fileName job h
    apply jobOf?_eq_some_iff.1 h
  · intro fileName
    rw [Option.eq_none_iff_forall_ne_some]
    apply forall_congr'
    intro job
    apply not_congr jobOf?_eq_some_iff

end JobFolder

end RobotJobs
