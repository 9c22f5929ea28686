/-!
# Beginnings and ends of texts

`afterStart?` removes a given text from the beginning of another one, `beforeEnd?` from
its end.  Both succeed exactly if the text stands there.
-/

namespace RobotJobs.Text

variable {α : Type} [DecidableEq α]

/-- What follows `xs` in a list that begins with `xs`. -/
def afterStart? : List α → List α → Option (List α)
  | [], ys => some ys
  | _ :: _, [] => none
  | x :: xs, y :: ys => if x = y then afterStart? xs ys else none

/-- What precedes `xs` in a list that ends with `xs`. -/
def beforeEnd? (xs ys : List α) : Option (List α) :=
  (afterStart? xs.reverse ys.reverse).map List.reverse

theorem afterStart?_eq_some_iff {xs ys rest : List α} :
  afterStart? xs ys = some rest ↔ ys = xs ++ rest
  := by
  induction xs generalizing ys with
  | nil => simp [afterStart?]
  | cons x xs ih =>
    cases ys with
    | nil => simp [afterStart?]
    | cons y ys =>
      by_cases h : x = y
      · simp [afterStart?, h, ih]
      · simp [afterStart?, h, Ne.symm h]

theorem beforeEnd?_eq_some_iff {xs ys rest : List α} :
  beforeEnd? xs ys = some rest ↔ ys = rest ++ xs
  := by
  simp only [beforeEnd?, Option.map_eq_some_iff, afterStart?_eq_some_iff]
  constructor
  · rintro ⟨a, h, rfl⟩
    simpa using congrArg List.reverse h
  · intro h
    exact ⟨rest.reverse, by simp [h], by simp⟩

end RobotJobs.Text
