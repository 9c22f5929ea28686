import RobotJobs.Call.Traversal
import RobotJobs.RunError
import RobotJobs.Text.LetterCase

/-!
# Analysis of a starting job

The starting job has to be in the folder under exactly the name that was given; a file
whose name differs in case only is refused, because a sweep that compares names exactly
would delete it.  The analysis of a starting job is its call tree and what was met on the
way; the problems are among the latter, and the names of all jobs are in the tree.
-/

namespace RobotJobs

/-- What is known about a starting job. -/
structure Analysis where
  tree : CallTree
  events : List CallEvent

namespace Analysis

/-- The problems met on the way, in order. -/
def problems (a : Analysis) : List Problem :=
  a.events.filterMap CallEvent.problem?

/-- The jobs that the starting job reaches, itself included, in order. -/
def reachable (a : Analysis) : List JobName :=
  a.tree.reachable

end Analysis

/-- The job name that an input gives, without the blank characters around it. -/
def JobName.ofInput (input : String) : Except RunError JobName :=
  let name := Text.trimmed input
  if name = "" then .error .noJobName else .ok ⟨name⟩

namespace FileView

/-- The traversal that begins with a job and knows the files of the folder. -/
def startTraversal (view : FileView) (folder : JobFolder) : Traversal :=
  { listing := view.fileNames? folder.path }

/-- The starting job that an input names. -/
def resolveRoot (view : FileView) (folder : JobFolder) (input : String) :
    Except RunError JobName :=
  match JobName.ofInput input with
  | .error e => .error e
  | .ok root =>
    if !root.isFileStem then .error (.rootNotFound (folder.jobPath root))
    else
      let listing := (view.fileNames? folder.path).getD []
      let fileName := folder.fileName root
      if listing.contains fileName then .ok root
      else match listing.find? (Text.sameLetters · fileName) with
        | some listed => .error (.rootCaseDiffers root.text listed)
        | none => .error (.rootNotFound (folder.jobPath root))

/-- The analysis of a starting job. -/
def analyze (view : FileView) (folder : JobFolder) (root : JobName) : Analysis :=
  let (calls, t) := view.walk folder root (view.startTraversal folder)
  ⟨⟨root, calls⟩, t.events.reverse⟩

end FileView

end RobotJobs
