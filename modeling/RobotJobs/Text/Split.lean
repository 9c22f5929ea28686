/-!
# Splitting at a separator

`segments sep xs` cuts `xs` at every occurrence of `sep`.  Putting the separator back
between the segments gives `xs` again, and no segment holds a separator.
-/

namespace RobotJobs.Text

variable {α : Type} [DecidableEq α]

/-- The stretches between separators: one more than there are separators. -/
def segments (sep : α) : List α → List (List α)
  | [] => [[]]
  | x :: xs =>
    if x = sep then [] :: segments sep xs
    else match segments sep xs with
      | [] => [[x]]
      | s :: ss => (x :: s) :: ss

theorem segments_ne_nil (sep : α) (xs : List α) :
  segments sep xs ≠ []
  := by
  cases xs with
  | nil => simp [segments]
  | cons x xs =>
    simp only [segments]
    split
    · simp
    · split <;> simp

theorem segments_cons_of_ne {sep x : α} (h : x ≠ sep) (xs : List α) :
  ∃ s ss, segments sep xs = s :: ss ∧ segments sep (x :: xs) = (x :: s) :: ss
  := by
  obtain ⟨s, ss, hs⟩ := List.exists_cons_of_ne_nil (segments_ne_nil sep xs)
  exact ⟨s, ss, hs, by simp [segments, h, hs]⟩

theorem segments_append_cons (sep : α) (xs ys : List α) (h : sep ∉ xs) :
  segments sep (xs ++ sep :: ys) = xs :: segments sep ys
  := by
  induction xs with
  | nil => simp [segments]
  | cons x xs ih =>
    obtain ⟨hx, hxs⟩ := not_or.1 (fun g => h (List.mem_cons.2 g))
    simp [segments, Ne.symm hx, ih hxs]

/-- A separator between two lists divides their segments. -/
theorem segments_append (sep : α) (xs ys : List α) :
  segments sep (xs ++ sep :: ys) = segments sep xs ++ segments sep ys
  := by
  induction xs with
  | nil => simp [segments]
  | cons x xs ih =>
    by_cases hx : x = sep
    · simp [segments, hx, ih]
    · obtain ⟨s, ss, hs, hseg⟩ := segments_cons_of_ne hx xs
      rw [hseg]
      simp [segments, hx, ih, hs]

theorem segments_of_not_mem {sep : α} {xs : List α} (h : sep ∉ xs) :
  segments sep xs = [xs]
  := by
  induction xs with
  | nil => rfl
  | cons x xs ih =>
    obtain ⟨hx, hxs⟩ := not_or.1 (fun g => h (List.mem_cons.2 g))
    simp [segments, Ne.symm hx, ih hxs]

/-- Only the empty list is one empty segment. -/
theorem eq_nil_of_segments {sep : α} {xs : List α} (h : segments sep xs = [[]]) :
  xs = []
  := by
  cases xs with
  | nil => rfl
  | cons x xs =>
    by_cases hx : x = sep
    · simp [segments, hx, segments_ne_nil] at h
    · obtain ⟨s, ss, -, hseg⟩ := segments_cons_of_ne hx xs
      rw [hseg] at h
      simp at h

theorem not_mem_of_mem_segments {sep : α} {xs s : List α} (h : s ∈ segments sep xs) :
  sep ∉ s
  := by
  induction xs generalizing s with
  | nil => simp_all [segments]
  | cons x xs ih =>
    by_cases hx : x = sep
    · simp only [segments, hx, if_true, List.mem_cons] at h
      rcases h with rfl | h
      · simp
      · exact ih h
    · obtain ⟨t, ts, ht, hseg⟩ := segments_cons_of_ne hx xs
      rw [hseg, List.mem_cons] at h
      rcases h with rfl | h
      · simpa [Ne.symm hx] using ih (ht ▸ List.mem_cons_self)
      · exact ih (ht ▸ List.mem_cons_of_mem _ h)

end RobotJobs.Text
