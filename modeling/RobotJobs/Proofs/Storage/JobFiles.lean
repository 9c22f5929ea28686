import RobotJobs.Proofs.Path.Shown
import RobotJobs.Proofs.Storage.Changes
import RobotJobs.Proofs.Sweep.Protected

/-!
# The files of jobs

The path of a job is the path of the job folder with the name of the job's file after it.
However the folder is written and whatever the job is called, as long as it may be the stem
of a file, this is a path directly in the folder that ends in that name
(`JobFolder.NamesFiles.place_jobPath`).  So a file that is put there is listed under the
name, and a file that is listed under the name, if that is a text, is found there
(`Memory.jobPath_listed`).
-/

namespace RobotJobs

namespace JobFolder

variable {folder : JobFolder} {job job' : JobName}

/-- The extension can stand at the end of file names: it is not empty, begins with no
further dot and holds no slash. -/
structure NamesFiles (folder : JobFolder) : Prop where
  nonempty : folder.extension ≠ ""
  undotted : folder.extension.toList.head? ≠ some '.'
  no_slash : '/' ∉ folder.extension.toList

/-- The name of a job's file is more than dots. -/
theorem NamesFiles.fileName_ne (h : folder.NamesFiles) (job : JobName) {s : String}
    (hs : ∀ c ∈ s.toList, c = '.') :
  Text.toBytes (folder.fileName job) ≠ Text.toBytes s
  := by
  intro hbytes
  have hname : folder.fileName job = s :=
    Function.LeftInverse.injective Text.ofBytes_toBytes hbytes
  obtain ⟨c, hc, hhead⟩ := Text.exists_head?_of_ne_empty h.nonempty
  obtain rfl : c = '.' := by
    apply hs
    rw [← hname, toList_fileName]
    apply List.mem_append_right _ hc
  apply h.undotted hhead

/-- The name of a job's file is a name that a component of a path can have. -/
theorem NamesFiles.isName (h : folder.NamesFiles) (hjob : job.isFileStem = true) :
  Path.IsName (Text.toBytes (folder.fileName job))
  := by
  constructor
  case nonempty => apply h.fileName_ne job (s := "") (by simp)
  case not_dot => apply h.fileName_ne job (s := ".") (by simp)
  case not_dots => apply h.fileName_ne job (s := "..") (by simp)
  case no_slash =>
    rw [Path.slash_mem_toBytes_iff, toList_fileName]
    simp [(JobName.isFileStem_iff.1 hjob).1, h.no_slash]

/-- The path of a job leads directly into the folder, to the name of the job's file. -/
theorem NamesFiles.place_jobPath (h : folder.NamesFiles) (hjob : job.isFileStem = true) :
  (folder.jobPath job).place
    = folder.path.place ++ [.name (Text.toBytes (folder.fileName job))]
  := Path.place_join folder.path (h.isName hjob)

theorem NamesFiles.parent?_jobPath (h : folder.NamesFiles) (hjob : job.isFileStem = true) :
  (folder.jobPath job).parent? = some folder.path.place
  := by
  rw [Path.parent?, h.place_jobPath hjob]
  simp [Place.parent?]

theorem NamesFiles.fileName?_jobPath (h : folder.NamesFiles) (hjob : job.isFileStem = true) :
  (folder.jobPath job).fileName? = some (Text.toBytes (folder.fileName job))
  := by
  rw [Path.fileName?, h.place_jobPath hjob]
  simp [Place.fileName?]

/-- Different jobs have different paths. -/
theorem NamesFiles.eq_of_place_jobPath (h : folder.NamesFiles) (hjob : job.isFileStem = true)
    (hjob' : job'.isFileStem = true)
    (hplace : (folder.jobPath job).place = (folder.jobPath job').place) :
  job = job'
  := by
  rw [h.place_jobPath hjob, h.place_jobPath hjob'] at hplace
  have hbytes : Text.toBytes (folder.fileName job) = Text.toBytes (folder.fileName job') := by
    simpa using hplace
  apply fileName_injective
  apply Function.LeftInverse.injective Text.ofBytes_toBytes hbytes

end JobFolder

namespace Memory

variable {m : Memory} {folder : JobFolder} {job : JobName}

/-- The file of a job can be seen: the folder is there, lists a path at the place of the job's
path, and shows the name of the job's file. -/
structure Shows (m : Memory) (folder : JobFolder) (job : JobName) : Prop where
  present : m.isFolder folder.path = true
  listed : ∃ paths, m.list folder.path = .ok paths
    ∧ ∃ path ∈ paths, path.place = (folder.jobPath job).place
  named : ∃ fileNames, m.view.fileNames? folder.path = some fileNames
    ∧ folder.fileName job ∈ fileNames

/-- The names of the files in a folder, if the folder is there. -/
theorem exists_fileNames_iff {folder : Path} {name : String} :
  (∃ fileNames, m.view.fileNames? folder = some fileNames ∧ name ∈ fileNames)
    ↔ m.isFolder folder = true ∧ m.Holds folder name
  := by
  rw [← exists_listed_iff]
  cases hlist : m.view.list folder with
  | error fault => simp [FileView.fileNames?, hlist]
  | ok paths => simp [FileView.fileNames?, hlist]

/-- A file that is stored at the path of a job can be seen, if the folder is there. -/
theorem shows_of_find? {bytes : List UInt8} (h : folder.NamesFiles)
    (hjob : job.isFileStem = true) (hfolder : m.isFolder folder.path = true)
    (hstored : m.files.find? (folder.jobPath job).place = some bytes) :
  m.Shows folder job
  := by
  obtain ⟨path, hmem, hplace⟩ := Shelf.find?_eq_some_iff.1 hstored
  have hpath : path ∈ m.files.paths := Shelf.mem_paths_iff.2 ⟨bytes, hmem⟩
  have hparent : path.parent? = some folder.path.place := by
    rw [Path.parent?, hplace]
    apply h.parent?_jobPath hjob
  constructor
  case present => apply hfolder
  case listed =>
    refine ⟨_, if_pos hfolder, path, ?_, hplace⟩
    simp [hpath, hparent]
  case named =>
    apply exists_fileNames_iff.2
    refine ⟨hfolder, path, hpath, hparent, ?_⟩
    rw [Path.fileNameText?_congr hplace, Path.fileNameText?, h.fileName?_jobPath hjob,
      Option.map_some, Text.ofBytes_toBytes]

/-- A job whose file is shown among names that are all texts is stored at its path. -/
theorem exists_find?_of_holds
    (htexts : ∀ path ∈ m.files.paths, path.parent? = some folder.path.place →
      ∀ name, path.fileName? = some name → Text.IsText name)
    (hholds : m.Holds folder.path (folder.fileName job)) :
  ∃ bytes, m.files.find? (folder.jobPath job).place = some bytes
  := by
  obtain ⟨path, hpath, hparent, hshown⟩ := hholds
  obtain ⟨name, hname, hjob⟩ := Option.map_eq_some_iff.1 hshown
  have htext := htexts path hpath hparent name hname
  rw [JobFolder.place_jobPath hparent hname htext hjob.symm]
  apply Option.isSome_iff_exists.1 (Shelf.isSome_find?_of_mem_paths hpath)

theorem isNotFound_of_read {path : Path} {bytes : List UInt8} {fault : StorageFault}
    (hcase : m.ignoresCase = false) (hstored : m.files.find? path.place = some bytes)
    (hread : m.read path = .error fault) :
  fault.isNotFound = false
  := by
  have hfind : m.find? path = some bytes := by
    simpa [find?, hcase] using hstored
  unfold read at hread
  split at hread
  · cases hread
    rfl
  · rw [hfind] at hread
    cases hread

/-- Let a folder be written in any way, with an extension that can stand at the end of file
names, and let a job be one that may be the stem of a file.  The job's path leads directly
into the folder, to the name of the job's file, and no other such job has a path to the same
place.  If a file is put there, it is stored there; from then on the folder is there, and the
file can be seen as long as it is stored, whatever else changes.  If the folder shows the name
of the job's file, and the names of all files in it are texts, then the file is found at the
path of the job, unless letter case is ignored. -/
theorem jobPath_listed (folder : JobFolder) (h : folder.NamesFiles) (job : JobName)
    (hjob : job.isFileStem = true) :
  ((folder.jobPath job).parent? = some folder.path.place
      ∧ (folder.jobPath job).fileName? = some (Text.toBytes (folder.fileName job)))
    ∧ (∀ job' : JobName, job'.isFileStem = true → job' ≠ job →
      (folder.jobPath job').place ≠ (folder.jobPath job).place)
    ∧ (∀ (m : Memory) content,
      (m.add (folder.jobPath job) content).files.find? (folder.jobPath job).place = some content
        ∧ ∀ changes, let m' := (m.add (folder.jobPath job) content).after changes
          m'.isFolder folder.path = true
            ∧ ((m'.files.find? (folder.jobPath job).place).isSome → m'.Shows folder job))
    ∧ ∀ m : Memory, m.ignoresCase = false →
      (∀ path ∈ m.files.paths, path.parent? = some folder.path.place →
        ∀ name, path.fileName? = some name → Text.IsText name) →
      ∀ fileNames, m.view.fileNames? folder.path = some fileNames →
        folder.fileName job ∈ fileNames →
          ∀ fault, m.read (folder.jobPath job) = .error fault → fault.isNotFound = false
  := by
  refine ⟨⟨h.parent?_jobPath hjob, h.fileName?_jobPath hjob⟩, ?_, ?_, ?_⟩
  · intro job' hjob' hne hplace
    apply hne (h.eq_of_place_jobPath hjob' hjob hplace)
  · intro m content
    constructor
    · rw [add, Shelf.find?_put, if_pos rfl]
    · intro changes m'
      have hfolder : m'.isFolder folder.path = true := by
        apply isFolder_after
        apply isFolder_add.2 (.inl (h.parent?_jobPath hjob))
      use hfolder
      intro hstored
      obtain ⟨bytes, hbytes⟩ := Option.isSome_iff_exists.1 hstored
      apply shows_of_find? h hjob hfolder hbytes
  · intro m hcase htexts fileNames hnames hshown fault hread
    obtain ⟨-, hholds⟩ := exists_fileNames_iff.1 ⟨fileNames, hnames, hshown⟩
    obtain ⟨bytes, hstored⟩ := exists_find?_of_holds htexts hholds
    apply isNotFound_of_read hcase hstored hread

/-- The folder `./jobs//`, with the usual extension and marker. -/
def slashedFolder : JobFolder where
  path := .ofString "./jobs//"

/-- A store with a file for the job `..`, of which someone tried to take the file away. -/
def withDots : Memory :=
  (({} : Memory).add (slashedFolder.jobPath ⟨".."⟩) (Text.toBytes "CALL JOB:.")).after
    [.lock (.ofString "./jobs/...JBI"), .remove (.ofString "./jobs/./...JBI"),
      .discard (.ofString "./jobs/A.JBI")]

/-- A job may be called like the folder above, and the folder may be written with a dot before
and slashes after its name. -/
theorem jobPath_listed_withDots :
  slashedFolder.NamesFiles
    ∧ (slashedFolder.jobPath ⟨".."⟩).display = "./jobs//...JBI"
    ∧ withDots.Shows slashedFolder ⟨".."⟩
    ∧ ∀ fault, withDots.read (slashedFolder.jobPath ⟨".."⟩) = .error fault →
      fault.isNotFound = false
  := by
  have hnames : slashedFolder.NamesFiles := ⟨by decide, by decide, by decide⟩
  obtain ⟨-, -, hadded, hshown⟩ := jobPath_listed slashedFolder hnames ⟨".."⟩ (by decide)
  have hshows : withDots.Shows slashedFolder ⟨".."⟩ := by
    apply ((hadded _ _).2 _).2
    decide
  obtain ⟨fileNames, hfileNames, hmem⟩ := hshows.named
  refine ⟨hnames, by decide, hshows, ?_⟩
  apply hshown withDots rfl _ fileNames hfileNames hmem
  intro path hpath _ name hname
  have hpaths : withDots.files.paths = [slashedFolder.jobPath ⟨".."⟩] := by decide
  obtain rfl : path = slashedFolder.jobPath ⟨".."⟩ := by simpa [hpaths] using hpath
  cases hname
  exact ⟨"...JBI", by decide⟩

end Memory

end RobotJobs
