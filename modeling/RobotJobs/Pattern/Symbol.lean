import RobotJobs.Text.Blank
import RobotJobs.Toml.Text

/-!
# Symbols of a pattern

A pattern describes texts.  Its smallest parts are symbols: a character that stands for
itself, a backslash with what belongs to it, any character, or an edge of the text, a line
or a word.  Which symbols have a meaning depends on the mode.  Nothing is known of the
letters and words of Unicode, so whatever speaks of them or of letters in either case means
something only where characters count as bytes.
-/

namespace RobotJobs.Pattern

/-- A reader of a part of a pattern. -/
abbrev Reader (α : Type) := List Char → Option (α × List Char)

/-- How the characters of a part of a pattern count: letters in either case alike, characters
of Unicode or bytes, blanks and comments for nothing. -/
structure Mode where
  anyCase : Bool := false
  unicode : Bool := true
  spaced : Bool := false

/-- The text after the blanks and comments it begins with, perhaps inside a comment. -/
def afterSpace (inComment : Bool) : List Char → List Char
  | [] => []
  | c :: cs =>
    if inComment then afterSpace (c != '\n') cs
    else if Text.isBlank c then afterSpace false cs
    else if c = '#' then afterSpace true cs
    else c :: cs

namespace Mode

/-- The text after what counts for nothing. -/
def skip (mode : Mode) (cs : List Char) : List Char :=
  if mode.spaced then afterSpace false cs else cs

/-- Whether the other case of a letter would be asked for and is not known. -/
def needsCases (mode : Mode) : Bool :=
  mode.anyCase && mode.unicode

end Mode

/-- The smallest parts of a pattern. -/
inductive Symbol where
  /-- A character, and whether it is written as the number of a byte. -/
  | char (c : Char) (asByte : Bool)
  /-- The characters of a kind, or all the others. -/
  | kind (others : Bool)
  /-- Any character. -/
  | any
  /-- An edge of the text, a line or a word. -/
  | edge (ofWord : Bool)

namespace Symbol

/-- Whether a symbol has a meaning by itself. -/
def isMeant (mode : Mode) : Symbol → Bool
  | char c asByte => !mode.needsCases && (mode.unicode || !asByte || c.toNat < 0x80)
  | kind others => !mode.unicode && !others
  | any => mode.unicode
  | edge ofWord => !ofWord || !mode.unicode

/-- Whether a symbol has a meaning in a class. -/
def isMeantInClass (mode : Mode) : Symbol → Bool
  | char c _ => !mode.needsCases && (mode.unicode || c.toNat < 0x80)
  | kind others => !mode.unicode && !others
  | any => false
  | edge _ => false

end Symbol

/-- The number that a count of hexadecimal digits goes on to write. -/
def hexadecimal (mode : Mode) : Nat → Nat → Reader Nat
  | 0, value, cs => some (value, cs)
  | count + 1, value, cs =>
    match mode.skip cs with
    | [] => none
    | c :: cs => (Toml.hexDigit? c).bind fun d => hexadecimal mode count (16 * value + d) cs

/-- The character with a number of a fixed count of digits. -/
def numbered (mode : Mode) (count : Nat) (asByte : Bool) : Reader Symbol := fun cs => do
  let (value, cs) ← hexadecimal mode count 0 cs
  if value.isValidChar then some (.char (Char.ofNat value) asByte, cs) else none

/-- What stands after a backslash. -/
def escape (mode : Mode) : Reader Symbol
  | [] => none
  | c :: cs =>
    if c = 'x' then numbered mode 2 true cs
    else if c = 'u' then numbered mode 4 false cs
    else if c = 'U' then numbered mode 8 false cs
    else if c ∈ ['d', 's', 'w'] then some (.kind false, cs)
    else if c ∈ ['D', 'S', 'W'] then some (.kind true, cs)
    else if c ∈ ['A', 'z'] then some (.edge false, cs)
    else if c ∈ ['b', 'B', '<', '>'] then some (.edge true, cs)
    else match c with
      | 'a' => some (.char '\x07' false, cs)
      | 'f' => some (.char '\x0c' false, cs)
      | 't' => some (.char '\t' false, cs)
      | 'n' => some (.char '\n' false, cs)
      | 'r' => some (.char '\r' false, cs)
      | 'v' => some (.char '\x0b' false, cs)
      | c => if c.toNat < 0x80 && !c.isAlphanum then some (.char c false, cs) else none

/-- A symbol by itself. -/
def symbol (mode : Mode) : Reader Symbol
  | [] => none
  | '\\' :: cs => escape mode cs
  | '.' :: cs => some (.any, cs)
  | c :: cs => some (if c = '^' || c = '$' then .edge false else .char c false, cs)

/-- A symbol in a class. -/
def symbolInClass (mode : Mode) : Reader Symbol
  | [] => none
  | '\\' :: cs => escape mode cs
  | c :: cs => some (.char c false, cs)

end RobotJobs.Pattern
