import RobotJobs.Proofs.Text.EditDistance

/-!
# Rows in place

Two rows are enough for an edit distance if they are used again and again: the current row is
overwritten from the left to the right, told from the row before and from what has just been
written, and copied to the row before when it is complete.  An entry is never read before it
is written, so it does not matter what the current row held (`overwriteRow_eq`), and what the
rows come to is the edit distance, also for a list and itself (`distanceInPlace_eq`).
-/

namespace RobotJobs.Text

variable {α : Type} [DecidableEq α]

/-- The current row with the entry after a position written anew, for one element of each
list. -/
def overwriteEntry (a : α) (before row : List ℕ) (b : α × ℕ) : List ℕ :=
  row.set (b.2 + 1)
    (min (min (before.getD (b.2 + 1) 0 + 1) (row.getD b.2 0 + 1))
      (before.getD b.2 0 + if a = b.1 then 0 else 1))

/-- The current row written anew for an element of the first list and its position. -/
def overwriteRow (bs : List α) (before row : List ℕ) (a : α × ℕ) : List ℕ :=
  bs.zipIdx.foldl (overwriteEntry a.1 before) (row.set 0 (a.2 + 1))

/-- The row before and the current row after the current one was written anew and copied. -/
def overwriteRows (bs : List α) (rows : List ℕ × List ℕ) (a : α × ℕ) : List ℕ × List ℕ :=
  let row := overwriteRow bs rows.1 rows.2 a
  (row, row)

/-- The edit distance from two rows in place, with anything in the current row at first. -/
def distanceInPlace (as bs : List α) (row : List ℕ) : ℕ :=
  (as.zipIdx.foldl (overwriteRows bs) (List.range (bs.length + 1), row)).1.getD bs.length 0

section Row

variable {a b : α} {as bs : List α} {j diagonal above left old : ℕ}
  {front rest written stale row : List ℕ}

/-- An entry is told from three entries beside it, and the old one does not matter. -/
theorem overwriteEntry_eq (hfront : front.length = j) (hwritten : written.length = j) :
  overwriteEntry a (front ++ diagonal :: above :: rest) (written ++ left :: old :: stale) (b, j)
    = written ++ left
      :: min (min (above + 1) (left + 1)) (diagonal + if a = b then 0 else 1) :: stale
  := by
  have habove : (front ++ diagonal :: above :: rest).getD (j + 1) 0 = above := by
    simp [← hfront]
  have hdiagonal : (front ++ diagonal :: above :: rest).getD j 0 = diagonal := by
    simp [← hfront]
  have hleft : (written ++ left :: old :: stale).getD j 0 = left := by
    simp [← hwritten]
  rw [overwriteEntry, habove, hdiagonal, hleft, ← hwritten]
  simp

/-- What has been written of the current row stays, and the rest of it is written anew. -/
theorem foldl_overwriteEntry (front written : List ℕ) (hfront : front.length = j)
    (hwritten : written.length = j) (hrest : rest.length = bs.length)
    (hstale : stale.length = bs.length) :
  (bs.zipIdx j).foldl (overwriteEntry a (front ++ diagonal :: rest)) (written ++ left :: stale)
    = written ++ left :: nextDistances a bs left (diagonal :: rest)
  := by
  induction bs generalizing j diagonal left front rest written stale with
  | nil =>
    obtain rfl := List.eq_nil_of_length_eq_zero hstale
    simp [nextDistances]
  | cons b bs ih =>
    obtain ⟨above, rest, rfl⟩ := List.exists_cons_of_length_eq_add_one hrest
    obtain ⟨old, stale, rfl⟩ := List.exists_cons_of_length_eq_add_one hstale
    rw [List.zipIdx_cons, List.foldl_cons, overwriteEntry_eq hfront hwritten]
    rw [List.append_cons written left, List.append_cons front diagonal]
    rw [ih (front ++ [diagonal]) (written ++ [left]) (by simp [hfront]) (by simp [hwritten])
      (by simpa using hrest) (by simpa using hstale)]
    rw [nextDistances, List.append_assoc, List.singleton_append]

/-- The current row written anew is the next row, whatever it held. -/
theorem overwriteRow_eq (hbefore : (diagonal :: rest).length = bs.length + 1)
    (hrow : row.length = bs.length + 1) :
  overwriteRow bs (diagonal :: rest) row (a, diagonal) = nextRow bs (diagonal :: rest) a
  := by
  obtain ⟨old, stale, rfl⟩ := List.exists_cons_of_length_eq_add_one hrow
  apply foldl_overwriteEntry [] [] rfl rfl
  · simpa using hbefore
  · simpa using hrow

end Row

/-! ### The rows for all elements -/

variable {as p bs : List α} {row : List ℕ}

theorem length_distances (p q bs : List α) :
  (distances p q bs).length = bs.length + 1
  := by
  induction bs generalizing q with
  | nil => rfl
  | cons b bs ih => rw [distances, List.length_cons, ih, List.length_cons]

theorem overwriteRows_distances (a : α) (hrow : row.length = bs.length + 1) :
  overwriteRows bs (distances p [] bs, row) (a, p.length)
    = (distances (a :: p) [] bs, distances (a :: p) [] bs)
  := by
  obtain ⟨rest, hrest⟩ := distances_eq_cons p [] bs
  have hlength := length_distances p [] bs
  have hnext := nextRow_distances a p bs
  rw [distance_nil_right] at hrest
  rw [hrest] at hlength hnext ⊢
  rw [overwriteRows, overwriteRow_eq hlength hrow, hnext]

theorem foldl_overwriteRows (as p : List α) (hrow : row.length = bs.length + 1) :
  ((as.zipIdx p.length).foldl (overwriteRows bs) (distances p [] bs, row)).1
    = distances (as.reverse ++ p) [] bs
  := by
  induction as generalizing p row with
  | nil => rfl
  | cons a as ih =>
    rw [List.zipIdx_cons, List.foldl_cons, overwriteRows_distances a hrow, List.reverse_cons,
      List.append_assoc]
    apply ih (a :: p) (length_distances (a :: p) [] bs)

/-- Two rows in place come to the edit distance, whatever the current row holds at first. -/
theorem distanceInPlace_eq (as bs : List α) (hrow : row.length = bs.length + 1) :
  distanceInPlace as bs row = editDistance as bs
  := by
  have hfirst : List.range (bs.length + 1) = distances [] [] bs := by
    rw [distances_nil, List.range_eq_range']
    rfl
  have hrows := foldl_overwriteRows as [] hrow
  have hlast := getLastD_distances as.reverse [] bs
  rw [List.getLastD_eq_getLast?, List.getLast?_eq_getElem?, length_distances] at hlast
  rw [List.append_nil] at hrows hlast
  rw [distanceInPlace, hfirst, editDistance_eq, ← hlast, ← hrows, List.getD_eq_getElem?_getD]
  rfl

end RobotJobs.Text
