import RobotJobs.Text.Line

/-!
# Searching a text

A text occurs in another one if something stands before it and after it.  The line that
holds a text is the first one in which it occurs, counted from one.
-/

namespace RobotJobs.Text

/-- Whether one list begins with another one. -/
def begins (xs ys : List Char) : Bool :=
  xs.isPrefixOf ys

/-- Whether one list occurs in another one. -/
def occursIn (xs : List Char) : List Char → Bool
  | [] => xs.isEmpty
  | y :: ys => begins xs (y :: ys) || occursIn xs ys

/-- The number of the first line in which a text occurs. -/
def lineHolding? (xs content : List Char) : Option Nat :=
  ((lines content).findIdx? (occursIn xs)).map (· + 1)

theorem occursIn_iff_isInfix {xs ys : List Char} :
  occursIn xs ys = true ↔ xs <:+: ys
  := by
  induction ys with
  | nil => simp [occursIn]
  | cons y ys ih =>
    rw [occursIn, Bool.or_eq_true, ih, begins, List.isPrefixOf_iff_prefix, List.infix_cons_iff]

end RobotJobs.Text
