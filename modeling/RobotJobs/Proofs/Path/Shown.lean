import RobotJobs.Job.Folder
import RobotJobs.Proofs.Path.Joining
import RobotJobs.Proofs.Text.SingleByte

/-!
# File names as text

A folder lists the names of its files as text, and the text may differ from the name.  It
is a name all the same: no text of a name is empty, holds a slash or stands for a folder
(`IsName.shown`).  So the path of a job whose file is listed leads into the job folder, to
the file with exactly the bytes of that text (`JobFolder.place_jobPath_of_listed`).
-/

namespace RobotJobs

namespace Path

variable {p q q' : Path} {name : List UInt8} {s : String}

theorem slash_mem_toBytes_iff :
  slash ∈ Text.toBytes s ↔ '/' ∈ s.toList
  := Text.mem_encode_iff (c := '/') (by decide)

/-- The text of a name is a name. -/
theorem IsName.shown (h : IsName name) :
  IsName (Text.toBytes (Text.ofBytes name))
  := by
  constructor
  case nonempty =>
    intro hempty
    exact h.nonempty (Text.eq_of_toBytes_ofBytes hempty (by decide))
  case not_dot =>
    intro hdot
    exact h.not_dot (Text.eq_of_toBytes_ofBytes hdot (by decide))
  case not_dots =>
    intro hdots
    exact h.not_dots (Text.eq_of_toBytes_ofBytes hdots (by decide))
  case no_slash =>
    intro hslash
    apply h.no_slash
    apply Text.mem_of_mem_decode (c := '/') (by decide)
    rw [slash_mem_toBytes_iff, Text.ofBytes, String.toList_ofList] at hslash
    exact hslash

theorem isName_of_fileNameText? (h : p.fileNameText? = some s) :
  IsName (Text.toBytes s)
  := by
  obtain ⟨name, hname, rfl⟩ := Option.map_eq_some_iff.1 h
  exact (isName_of_fileName? hname).shown

theorem fileNameText?_congr (h : p.place = q.place) :
  p.fileNameText? = q.fileNameText?
  := by
  rw [fileNameText?, fileNameText?, fileName?, fileName?, h]

/-- Paths that do not start at the root can be told apart after they are joined to a path. -/
theorem join_right_cancel (hq : q.isAbsolute = false) (hq' : q'.isAbsolute = false)
    (h : p.join q = p.join q') :
  q = q'
  := by
  obtain ⟨bytes⟩ := q
  obtain ⟨bytes'⟩ := q'
  simp only [join, hq, hq'] at h
  cases hopen : p.endsOpen with
  | true => simpa [hopen] using h
  | false => simpa [hopen] using h

end Path

namespace JobFolder

variable {folder : JobFolder} {job : JobName} {path : Path}

/-- The path of a job leads into the job folder, if any file is listed under the name of the
job's file. -/
theorem place_jobPath_of_listed (h : path.fileNameText? = some (folder.fileName job)) :
  (folder.jobPath job).place
    = folder.path.place ++ [.name (Text.toBytes (folder.fileName job))]
  := Path.place_join folder.path (Path.isName_of_fileNameText? h)

/-- The path of a job whose file is listed ends in the name of the job's file. -/
theorem fileNameText?_jobPath (h : path.fileNameText? = some (folder.fileName job)) :
  (folder.jobPath job).fileNameText? = some (folder.fileName job)
  := by
  have hname : (folder.jobPath job).fileName?
      = some (Text.toBytes (folder.fileName job)) := by
    rw [Path.fileName?, place_jobPath_of_listed h]
    simp [Place.fileName?]
  rw [Path.fileNameText?, hname, Option.map_some, Text.ofBytes_toBytes]

end JobFolder

end RobotJobs
