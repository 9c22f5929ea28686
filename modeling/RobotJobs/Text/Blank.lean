/-!
# Blank characters

A character is blank when it has the Unicode property White_Space.  `trim` drops the
blank characters at both ends of a text, and `firstWord` is the first maximal run of
characters that are not blank.  A trimmed text neither begins nor ends with a blank
character, and a first word holds none at all.
-/

namespace RobotJobs.Text

/-- Whether a character has the Unicode property White_Space. -/
def isBlank (c : Char) : Bool :=
  let n := c.toNat
  (9 ≤ n && n ≤ 13) || n == 0x20 || n == 0x85 || n == 0xA0 || n == 0x1680 ||
    (0x2000 ≤ n && n ≤ 0x200A) || n == 0x2028 || n == 0x2029 || n == 0x202F ||
    n == 0x205F || n == 0x3000

/-- The text without the blank characters it begins with. -/
def trimStart (cs : List Char) : List Char :=
  cs.dropWhile isBlank

/-- The text without the blank characters it ends with. -/
def trimEnd (cs : List Char) : List Char :=
  (cs.reverse.dropWhile isBlank).reverse

/-- The text without the blank characters at its two ends. -/
def trim (cs : List Char) : List Char :=
  trimEnd (trimStart cs)

/-- The first word of a text, empty when every character is blank. -/
def firstWord (cs : List Char) : List Char :=
  (trimStart cs).takeWhile (fun c => !isBlank c)

/-- `trim` on strings. -/
def trimmed (s : String) : String :=
  String.ofList (trim s.toList)

theorem isBlank_of_isWhitespace {c : Char} (h : c.isWhitespace = true) :
  isBlank c = true
  := by
  simp only [Char.isWhitespace, Bool.or_eq_true, decide_eq_true_eq] at h
  rcases h with ((h | h) | h) | h <;> subst h <;> decide

theorem trimStart_eq_nil_iff {cs : List Char} :
  trimStart cs = [] ↔ ∀ c ∈ cs, isBlank c = true
  := by
  induction cs with
  | nil => simp [trimStart]
  | cons c cs ih =>
    by_cases h : isBlank c = true
    · simp_all [trimStart]
    · simp [trimStart, h]

theorem not_isBlank_of_mem_firstWord {cs : List Char} {c : Char} (h : c ∈ firstWord cs) :
  isBlank c = false
  := by
  have := List.all_takeWhile (l := trimStart cs) (p := fun c => !isBlank c)
  simpa using List.all_eq_true.1 this c h

end RobotJobs.Text
