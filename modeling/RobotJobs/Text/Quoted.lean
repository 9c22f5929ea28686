import RobotJobs.Text.Visible

/-!
# Quoted text

A text is quoted for a message between double quotes.  The quote and the backslash are
escaped by a backslash, frequent control characters by a letter, and every other
character that is not visible by its number in hexadecimal digits.
-/

namespace RobotJobs.Text

/-- How a character is written inside quotes. -/
def quotedChar (c : Char) : List Char :=
  match c with
  | '\x00' => ['\\', '0']
  | '\t' => ['\\', 't']
  | '\n' => ['\\', 'n']
  | '\r' => ['\\', 'r']
  | '"' => ['\\', '"']
  | '\\' => ['\\', '\\']
  | c =>
    if isVisible c then [c]
    else ['\\', 'u', '\x7b'] ++ Nat.toDigits 16 c.toNat ++ ['\x7d']

/-- A text in double quotes. -/
def quoted (s : String) : String :=
  String.ofList ('"' :: s.toList.flatMap quotedChar ++ ['"'])

end RobotJobs.Text
