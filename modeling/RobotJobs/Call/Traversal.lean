import RobotJobs.Call.Event
import RobotJobs.Call.Tree

/-!
# Traversals

A traversal visits jobs and follows their references.  The first visit of a job expands
it; every later one, on a way back to a caller or on a second way to the same job, finds
it visited and has no calls.  So a file is read at most once.

What a job refers to is the answer of `FileView.callsOf`: the references in its file, or
the problem with it.  A job counts as missing unless its exact file name is listed, also
where the store would open a file whose name differs in case only.

`visit` recurses as deep as its budget allows.  `budget` is the number of names that can
occur and have not been visited; a visit marks one of them before it recurses, so this
budget is never used up, and `walk` is the visit that has it.
-/

namespace RobotJobs

/-- What a traversal has seen: the visited jobs and the events, both with the latest first,
and the names of the files of the folder, if only these count as there. -/
structure Traversal where
  visited : List JobName := []
  events : List CallEvent := []
  listing : Option (List String) := none

namespace Traversal

/-- The traversal after a job has been marked as visited. -/
def mark (t : Traversal) (job : JobName) : Traversal :=
  { t with visited := job :: t.visited }

/-- The traversal after an event. -/
def record (t : Traversal) (event : CallEvent) : Traversal :=
  { t with events := event :: t.events }

/-- The problems in the order in which they were met. -/
def problems (t : Traversal) : List Problem :=
  t.events.reverse.filterMap CallEvent.problem?

theorem problems_record (t : Traversal) (event : CallEvent) :
  (t.record event).problems = t.problems ++ event.problem?.toList
  := by
  cases event <;> simp [problems, record, CallEvent.problem?]

end Traversal

namespace FileView

/-- Whether a file name counts as there. -/
def isListed (listing : Option (List String)) (fileName : String) : Bool :=
  match listing with
  | none => true
  | some names => names.contains fileName

/-- The jobs that a job refers to, or the problem with its file. -/
def callsOf (view : FileView) (folder : JobFolder) (listing : Option (List String))
    (job : JobName) : Except Problem (List JobName) :=
  if !job.isFileStem then .error (folder.missing job)
  else if !isListed listing (folder.fileName job) then .error (folder.missing job)
  else match view.read (folder.jobPath job) with
    | .ok bytes => .ok (Reference.inBytes folder.marker bytes)
    | .error fault => .error (folder.refused job fault)

/-- The calls below a job and the traversal after the visit. -/
def visit (view : FileView) (folder : JobFolder) :
    Nat → JobName → Traversal → Calls × Traversal
  | 0, _, t => (.none, t)
  | budget + 1, job, t =>
    if t.visited.contains job then (.none, t.record (.again job))
    else match view.callsOf folder t.listing job with
      | .error problem => (.none, (t.mark job).record (.problem problem))
      | .ok jobs =>
        jobs.foldl (fun (calls, t) called =>
          let (below, t) := view.visit folder budget called (t.record (.reference job called))
          (calls.insert called below, t)) (.none, t.mark job)

/-- All names that a reference in the store can have, and the job itself. -/
def namesFrom (view : FileView) (folder : JobFolder) (job : JobName) : List JobName :=
  (job :: view.contents.flatMap (Reference.inBytes folder.marker)).eraseDups

/-- How many names can occur and have not been visited. -/
def budget (view : FileView) (folder : JobFolder) (job : JobName) (t : Traversal) : Nat :=
  ((view.namesFrom folder job).filter fun name => !t.visited.contains name).length

/-- The visit of a job that follows all references. -/
def walk (view : FileView) (folder : JobFolder) (job : JobName) (t : Traversal) :
    Calls × Traversal :=
  view.visit folder (view.budget folder job t + 1) job t

end FileView

end RobotJobs
