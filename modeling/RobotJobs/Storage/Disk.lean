import RobotJobs.Storage.View
import RobotJobs.Sweep

/-!
# Files on a disk

A `Disk` is a tree of folders, files and symbolic links, kept as one list of entries under
their names from the root, together with the current folder.  A path is followed step by
step: every step but the last has to arrive at a folder, a link sends the walk on to its
target, and no more than forty links are followed.  What the walk runs into on its way is
the failure that an operation reports.
-/

namespace RobotJobs

/-- What stands under a name. -/
inductive DiskEntry where
  | folder
  | file (content : List UInt8)
  | link (target : Path)
  deriving DecidableEq

/-- A position on a disk: the names from the root. -/
abbrev DiskNames := List (List UInt8)

/-- A step of a walk over a disk. -/
inductive DiskStep where
  | stay
  | up
  | into (name : List UInt8)
  deriving DecidableEq

/-- A tree of folders, files and links, and the current folder in it. -/
structure Disk where
  entries : List (DiskNames × DiskEntry) := []
  current : DiskNames := []

namespace DiskStep

/-- The step that a segment of a path asks for. -/
def ofSegment (segment : List UInt8) : DiskStep :=
  if segment = [Path.dot] then stay
  else if segment = [Path.dot, Path.dot] then up
  else into segment

/-- The steps of a path up to its end, whether it ends in a slash or not. -/
def inside (path : Path) : List DiskStep :=
  ((Text.segments Path.slash path.bytes).filter (· ≠ [])).map ofSegment

/-- The steps of a path; a slash at the end stays where the path has led, which has to be a
folder then. -/
def ofPath (path : Path) : List DiskStep :=
  inside path ++ if path.bytes.getLast? = some Path.slash then [stay] else []

end DiskStep

namespace Disk

/-- How many links a walk may follow. -/
def linkLimit : Nat := 40

/-- The greatest length of a name. -/
def nameLimit : Nat := 255

/-- The length that a path must not reach. -/
def pathLimit : Nat := 4096

/-- What stands at a position; at the root there is always a folder. -/
def entry? (disk : Disk) (names : DiskNames) : Option DiskEntry :=
  if names = [] then some .folder
  else (disk.entries.find? fun e => e.1 = names).map Prod.snd

/-- Where a walk starts. -/
def startOf (disk : Disk) (path : Path) : DiskNames :=
  if path.isAbsolute then [] else disk.current

/-- The position that a walk arrives at when it may follow the given number of links.  The
last name has to be there unless the walk may end at a free position. -/
def walk (disk : Disk) (mayEndFree : Bool) (links : Nat) (names : DiskNames)
    (steps : List DiskStep) : Except IoFailure DiskNames :=
  match steps with
  | [] => .ok names
  | step :: rest =>
    if disk.entry? names ≠ some .folder then .error .notFolder
    else match step with
      | .stay => disk.walk mayEndFree links names rest
      | .up => disk.walk mayEndFree links names.dropLast rest
      | .into name =>
        if name.length > nameLimit then .error .nameTooLong
        else match disk.entry? (names ++ [name]) with
          | none =>
            if mayEndFree ∧ rest = [] then .ok (names ++ [name]) else .error .noEntry
          | some (.link target) =>
            match links with
            | 0 => .error .linkLoop
            | links + 1 =>
              disk.walk mayEndFree links (if target.isAbsolute then [] else names)
                (DiskStep.ofPath target ++ rest)
          | some _ => disk.walk mayEndFree links (names ++ [name]) rest
termination_by (links, steps.length)

/-- The failure of a path that cannot be followed whatever is on the disk. -/
def refused? (path : Path) : Option IoFailure :=
  if path.bytes.contains 0 then some .zeroByte
  else if path.bytes = [] then some .noEntry
  else if path.bytes.length ≥ pathLimit then some .nameTooLong
  else none

/-- The position that a path leads to. -/
def locate (disk : Disk) (path : Path) : Except IoFailure DiskNames :=
  match refused? path with
  | some failure => .error failure
  | none => disk.walk false linkLimit (disk.startOf path) (DiskStep.ofPath path)

/-- What a path leads to. -/
def find (disk : Disk) (path : Path) : Except IoFailure DiskEntry :=
  match disk.locate path with
  | .error failure => .error failure
  | .ok names => match disk.entry? names with
    | none => .error .noEntry
    | some e => .ok e

/-- Whether a path leads to a folder. -/
def isFolder (disk : Disk) (path : Path) : Bool :=
  disk.find path matches .ok .folder

/-- Whether a path leads to a file. -/
def isFile (disk : Disk) (path : Path) : Bool :=
  disk.find path matches .ok (.file _)

/-- The content of the file that a path leads to. -/
def fileContent (disk : Disk) (path : Path) : Except IoFailure (List UInt8) :=
  match disk.find path with
  | .error failure => .error failure
  | .ok (.file content) => .ok content
  | .ok _ => .error .isFolder

/-- The names directly below a position. -/
def namesBelow (disk : Disk) (names : DiskNames) : List (List UInt8) :=
  disk.entries.filterMap fun (other, _) =>
    if other.dropLast = names then other.getLast? else none

/-- The files in the folder that a path leads to, in order.  A link counts as what it leads
to. -/
def listFolder (disk : Disk) (path : Path) : Except IoFailure (List Path) :=
  match disk.locate path with
  | .error failure => .error failure
  | .ok names =>
    if disk.entry? names = some .folder then
      let files := ((disk.namesBelow names).map fun n => path.join ⟨n⟩).filter disk.isFile
      .ok (files.mergeSort fun p q => !(decide (q.place.Before p.place)))
    else .error .notFolder

/-- The position that the last of some steps names in the folder that the others lead to,
whatever stands there. -/
def spot (disk : Disk) (start : DiskNames) (steps : List DiskStep) :
    Except IoFailure DiskNames :=
  match disk.walk false linkLimit start (steps.dropLast ++ [.stay]) with
  | .error failure => .error failure
  | .ok names => match steps.getLast? with
    | some (.into name) =>
      if name.length > nameLimit then .error .nameTooLong else .ok (names ++ [name])
    | _ => .error .isFolder

/-- The position of the entry that a path names, a link at its end not followed. -/
def locateEntry (disk : Disk) (path : Path) : Except IoFailure DiskNames :=
  match refused? path with
  | some failure => .error failure
  | none => match disk.spot (disk.startOf path) (DiskStep.inside path) with
    | .error failure => .error failure
    | .ok names => match disk.entry? names with
      | none => .error .noEntry
      | some .folder => .error .isFolder
      | some _ =>
        if path.bytes.getLast? = some Path.slash then .error .notFolder else .ok names

/-- The answer to the removal of a file or link, and the disk after it. -/
def removeFile (disk : Disk) (path : Path) : Except IoFailure Unit × Disk :=
  match disk.locateEntry path with
  | .error failure => (.error failure, disk)
  | .ok names => (.ok (), { disk with entries := disk.entries.filter (·.1 ≠ names) })

/-- The contents of all files. -/
def contents (disk : Disk) : List (List UInt8) :=
  disk.entries.filterMap fun (_, e) => match e with
    | .file content => some content
    | _ => none

/-- The answer to a read, with the fault of a refusal. -/
def read (disk : Disk) (path : Path) : Except StorageFault (List UInt8) :=
  (disk.fileContent path).mapError fun failure => .ofIo failure path

/-- The answer to a listing, with the fault of a refusal. -/
def list (disk : Disk) (path : Path) : Except StorageFault (List Path) :=
  (disk.listFolder path).mapError fun failure => .ofIo failure path

/-- The answer to a removal, with the fault of a refusal, and the disk after it. -/
def remove (disk : Disk) (path : Path) : Except StorageFault Unit × Disk :=
  let (answer, disk) := disk.removeFile path
  (answer.mapError fun failure => .ofIo failure path, disk)

theorem mem_contents_of_entry? {disk : Disk} {names : DiskNames} {content : List UInt8}
    (h : disk.entry? names = some (.file content)) :
  content ∈ disk.contents
  := by
  unfold entry? at h
  split at h
  · cases h
  · obtain ⟨e, he, hfile⟩ := Option.map_eq_some_iff.1 h
    exact List.mem_filterMap.2 ⟨e, List.mem_of_find?_eq_some he, by simp [hfile]⟩

theorem exists_entry?_of_find {disk : Disk} {path : Path} {e : DiskEntry}
    (h : disk.find path = .ok e) :
  ∃ names, disk.entry? names = some e
  := by
  unfold find at h
  split at h
  · cases h
  · split at h
    · cases h
    · cases h
      exact ⟨_, by assumption⟩

theorem mem_contents_of_read {disk : Disk} {path : Path} {bytes : List UInt8}
    (h : disk.read path = .ok bytes) :
  bytes ∈ disk.contents
  := by
  unfold read fileContent at h
  split at h
  · cases h
  · next hfind =>
    cases h
    obtain ⟨names, hnames⟩ := exists_entry?_of_find hfind
    exact mem_contents_of_entry? hnames
  · cases h

/-- What can be asked about the files on a disk. -/
def view (disk : Disk) : FileView where
  isFolder := disk.isFolder
  list := disk.list
  read := disk.read
  contents := disk.contents
  mem_contents := mem_contents_of_read

/-- The outcomes of a planned sweep and the disk after it. -/
def carryOut (disk : Disk) (keep : List JobName) (dryRun : Bool) (plan : List SweepEntry) :
    List Outcome × Disk :=
  let remove : Path → StateM Disk (Except StorageFault Unit) := fun path disk => disk.remove path
  (RobotJobs.sweep remove keep dryRun plan).run disk

end Disk

end RobotJobs
