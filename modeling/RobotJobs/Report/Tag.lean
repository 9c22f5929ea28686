import RobotJobs.Report.Style
import RobotJobs.RunError

/-!
# Status tags

A line of a report may start with a bracketed tag.  The tag is fixed text, so that a
report can be searched for it; its colour is only put around it.  Headings and asides are
styled too.
-/

namespace RobotJobs

/-- What a line of a report is about. -/
inductive Tag where
  | kept
  | deleted
  | wouldDelete
  | error
  | aborted
  | warning
  deriving DecidableEq

namespace Tag

/-- The text of a tag. -/
def text : Tag → String
  | kept => "[KEPT]"
  | deleted => "[DELETED]"
  | wouldDelete => "[WOULD DELETE]"
  | error => "[ERROR]"
  | aborted => "[ABORTED]"
  | warning => "[WARN]"

/-- The style of a tag. -/
def style : Tag → Style
  | kept => ⟨.green, false⟩
  | deleted | wouldDelete | warning => ⟨.yellow, false⟩
  | error | aborted => ⟨.red, true⟩

/-- A tag in its style. -/
def render (tag : Tag) (paint : Paint) : String :=
  paint.apply tag.style tag.text

/-- A tagged line, without an end of line. -/
def line (tag : Tag) (message : String) (paint : Paint) : String :=
  tag.render paint ++ " " ++ message

end Tag

/-- A heading in its style. -/
def heading (text : String) (paint : Paint) : String :=
  paint.apply ⟨.cyan, true⟩ text

/-- An aside, such as a count, in its style. -/
def aside (text : String) (paint : Paint) : String :=
  paint.apply ⟨.grey, false⟩ text

/-- Lines as one text, each with its end. -/
def unlines (lines : List String) : String :=
  String.join (lines.map (· ++ "\n"))

/-- What is shown for an error that ends a run: its text, and a promise that nothing is
deleted if that is certain. -/
def shownError (message : String) (precedesSweep : Bool) (paint : Paint) : String :=
  unlines (Tag.error.line message paint ::
    if precedesSweep then [Tag.aborted.line "No files will be deleted." paint] else [])

/-- What is shown for an error of a run. -/
def RunError.shown (e : RunError) (paint : Paint) : String :=
  shownError e.message e.precedesSweep paint

end RobotJobs
