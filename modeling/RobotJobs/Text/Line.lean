import RobotJobs.Text.Split

/-!
# Lines

`lines` cuts a text at its line feeds.  A line feed ends the line before it, so a text
that ends in one has no empty last line; a carriage return directly before a line feed
belongs to the line end.  A last line without a line feed keeps its carriage return.
-/

namespace RobotJobs.Text

/-- The text without one carriage return at its end. -/
def dropReturn (cs : List Char) : List Char :=
  if cs.getLast? = some '\r' then cs.dropLast else cs

/-- The lines of the segments of a text: a line feed ended every segment but the last. -/
def linesOfSegments : List (List Char) → List (List Char)
  | [] => []
  | [s] => if s = [] then [] else [s]
  | s :: t :: ss => dropReturn s :: linesOfSegments (t :: ss)

/-- The lines of a text. -/
def lines (cs : List Char) : List (List Char) :=
  linesOfSegments (segments '\n' cs)

theorem lines_append_newline (xs ys : List Char) (h : '\n' ∉ xs) :
  lines (xs ++ '\n' :: ys) = dropReturn xs :: lines ys
  := by
  obtain ⟨s, ss, hs⟩ := List.exists_cons_of_ne_nil (segments_ne_nil '\n' ys)
  simp [lines, segments_append_cons, h, hs, linesOfSegments]

end RobotJobs.Text
