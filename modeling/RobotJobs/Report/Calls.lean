import RobotJobs.Call.Analysis
import RobotJobs.Call.Drawing
import RobotJobs.Report.Tag

/-!
# The report of an analysis

A run reports the starting job, one line for each problem, the drawn call tree under a
heading and, if asked to, the size of the tree.
-/

namespace RobotJobs

/-- The line that names the starting job, after an empty one. -/
def startLine (root : JobName) : String :=
  "\nStarting from job: " ++ root.text ++ "\n"

/-- One line for each problem. -/
def problemLines (problems : List Problem) (paint : Paint) : String :=
  unlines (problems.map fun p => Tag.error.line p.message paint)

namespace Analysis

/-- The call tree under its heading. -/
def treeReport (a : Analysis) (g : Glyphs) (paint : Paint) : String :=
  "\n" ++ heading "Job Call Tree:" paint ++ "\n" ++ unlines (a.tree.draw g)

/-- The size of the tree. -/
def sizeReport (a : Analysis) (paint : Paint) : String :=
  aside (toString a.reachable.length ++ " jobs reachable, " ++
    toString a.tree.nodeCount ++ " tree nodes, depth " ++
    toString a.tree.calls.depth ++ ", " ++
    toString a.problems.length ++ " missing") paint ++ "\n"

end Analysis

end RobotJobs
