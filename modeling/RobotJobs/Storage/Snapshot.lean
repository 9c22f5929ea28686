import RobotJobs.Storage.View

/-!
# Snapshots of a folder

A snapshot holds the answers that a store gave about one folder and the files in it.  It
serves as a view of them as long as nothing changes; a path that it knows nothing of leads
nowhere.
-/

namespace RobotJobs

/-- The answers about a folder and its files. -/
structure Snapshot where
  folder : Path
  isFolder : Bool
  listing : Except StorageFault (List Path)
  answers : List (Path × Except StorageFault (List UInt8))

namespace Snapshot

/-- The answer about a file. -/
def read (s : Snapshot) (path : Path) : Except StorageFault (List UInt8) :=
  match s.answers.find? fun a => a.1 = path with
  | some (_, answer) => answer
  | none => .error (.notFound path)

/-- The contents of the files that could be read. -/
def contents (s : Snapshot) : List (List UInt8) :=
  s.answers.filterMap fun (_, answer) => answer.toOption

theorem mem_contents_of_read {s : Snapshot} {path : Path} {bytes : List UInt8}
    (h : s.read path = .ok bytes) :
  bytes ∈ s.contents
  := by
  unfold read at h
  split at h
  · next hfind =>
    exact List.mem_filterMap.2
      ⟨_, List.mem_of_find?_eq_some hfind, by simp [h, Except.toOption]⟩
  · cases h

/-- What can be asked about the files of a snapshot. -/
def view (s : Snapshot) : FileView where
  isFolder path := s.isFolder && path = s.folder
  list path := if path = s.folder then s.listing else .error (.notFound path)
  read := s.read
  contents := s.contents
  mem_contents := mem_contents_of_read

end Snapshot

end RobotJobs
