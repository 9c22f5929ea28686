import RobotJobs.Storage.Shelf
import RobotJobs.Storage.View
import RobotJobs.Sweep
import RobotJobs.Text.LetterCase

/-!
# Files in memory

A `Memory` holds files on a shelf.  Adding a file makes the place that directly holds it
a folder, and a folder stays one when its files go.  Files can be denied to readers,
locked against removal, and looked up without regard to letter case; then the first file
in order whose path agrees is read.
-/

namespace RobotJobs

/-- A store in memory. -/
structure Memory where
  files : Shelf := .empty
  folders : List Place := []
  denied : List Place := []
  locked : List Place := []
  ignoresCase : Bool := false

namespace Memory

/-- The store with a file added, or its content replaced. -/
def add (m : Memory) (path : Path) (content : List UInt8) : Memory :=
  { m with
    files := m.files.put path content
    folders := path.parent?.toList ++ m.folders }

/-- The store without a file, whether it was there or not. -/
def discard (m : Memory) (path : Path) : Memory :=
  { m with files := m.files.erase path.place }

/-- The store in which a path cannot be read. -/
def deny (m : Memory) (path : Path) : Memory :=
  { m with denied := path.place :: m.denied }

/-- The store in which a path cannot be removed. -/
def lock (m : Memory) (path : Path) : Memory :=
  { m with locked := path.place :: m.locked }

/-- Whether a path is a folder. -/
def isFolder (m : Memory) (path : Path) : Bool :=
  m.folders.contains path.place

/-- The stored content that a path leads to. -/
def find? (m : Memory) (path : Path) : Option (List UInt8) :=
  if m.ignoresCase then
    (m.files.entries.find? fun e => Text.sameLetters e.1.display path.display).map Prod.snd
  else m.files.find? path.place

/-- The content of a file. -/
def read (m : Memory) (path : Path) : Except StorageFault (List UInt8) :=
  if m.denied.contains path.place then .error (.denied path)
  else match m.find? path with
    | some bytes => .ok bytes
    | none => .error (.notFound path)

/-- The files directly inside a folder, in order. -/
def list (m : Memory) (folder : Path) : Except StorageFault (List Path) :=
  if m.isFolder folder then
    .ok (m.files.paths.filter fun p => p.parent? = some folder.place)
  else .error (.notFound folder)

/-- The answer to the removal of a file, and the store after it. -/
def remove (m : Memory) (path : Path) : Except StorageFault Unit × Memory :=
  if m.locked.contains path.place then (.error (.denied path), m)
  else match m.files.find? path.place with
    | none => (.error (.notFound path), m)
    | some _ => (.ok (), m.discard path)

theorem read_mem_contents {m : Memory} {path : Path} {bytes : List UInt8}
    (h : m.read path = .ok bytes) :
  bytes ∈ m.files.contents
  := by
  unfold read at h
  split at h
  · cases h
  · split at h
    · next hfind =>
      cases h
      unfold find? at hfind
      split at hfind
      · exact Shelf.mem_contents_of_find? hfind
      · exact Shelf.mem_contents_of_find? hfind
    · cases h

/-- What can be asked about the files. -/
def view (m : Memory) : FileView where
  isFolder := m.isFolder
  list := m.list
  read := m.read
  contents := m.files.contents
  mem_contents := read_mem_contents

/-- The outcomes of a planned sweep and the store after it. -/
def carryOut (m : Memory) (keep : List JobName) (dryRun : Bool) (plan : List SweepEntry) :
    List Outcome × Memory :=
  let remove : Path → StateM Memory (Except StorageFault Unit) := fun path m => m.remove path
  (RobotJobs.sweep remove keep dryRun plan).run m

/-- The outcomes of a sweep through a folder and the store after it.  A sweep that cannot
begin leaves the store as it is. -/
def sweep (m : Memory) (folder : JobFolder) (keep : List JobName) (dryRun : Bool) :
    Except RunError (List Outcome) × Memory :=
  match SweepEntry.all m.view folder with
  | .error e => (.error e, m)
  | .ok plan =>
    let (outcomes, m) := m.carryOut keep dryRun plan
    (.ok outcomes, m)

end Memory

end RobotJobs
