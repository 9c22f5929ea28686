/-!
# Sets of characters

A set of characters is written down as the list of the code points at which being in the
set begins or ends, in order.  A code point below the first of them is outside.
-/

namespace RobotJobs.Text

/-- Whether a character is in the set that begins and ends at the given code points. -/
def inRanges (changes : List Nat) (c : Char) : Bool :=
  (changes.takeWhile (· ≤ c.toNat)).length % 2 == 1

end RobotJobs.Text
