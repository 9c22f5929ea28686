/-!
# Edit distance

The edit distance of two lists is the least number of insertions, deletions and
substitutions of single elements that turn the one into the other.  It is computed row by
row: a row holds the distances from one beginning of the first list to all beginnings of
the second list, and the next row needs no other one.
-/

namespace RobotJobs.Text

variable {α : Type} [DecidableEq α]

/-- The distances of a row after its first one, for one more element `a` of the first list.
`left` is the distance before them in the same row; the last argument is the row before,
from the distance before them on. -/
def nextDistances (a : α) : List α → Nat → List Nat → List Nat
  | b :: bs, left, diagonal :: above :: row =>
    let d := min (min (above + 1) (left + 1)) (diagonal + if a = b then 0 else 1)
    d :: nextDistances a bs d (above :: row)
  | _, _, _ => []

/-- The row for one more element of the first list. -/
def nextRow (bs : List α) (row : List Nat) (a : α) : List Nat :=
  let first := row.headD 0 + 1
  first :: nextDistances a bs first row

/-- The edit distance of two lists. -/
def editDistance (as bs : List α) : Nat :=
  if as = bs then 0
  else (as.foldl (nextRow bs) (List.range (bs.length + 1))).getLastD 0

end RobotJobs.Text
