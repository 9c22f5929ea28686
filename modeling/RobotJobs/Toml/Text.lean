import RobotJobs.Text.Ends

/-!
# Quoted texts in TOML

A text stands between double quotes, where a backslash begins an escape, or between single
quotes, where nothing is escaped.  Three quotes make a text of several lines; a line feed
directly after them does not belong to it, and a backslash at the end of a line takes the
line end and all blanks after it away.  One or two quotes may stand directly before the
three that end such a text.

Every reader takes characters and gives what it has read together with the characters
after it, or nothing if there is a mistake.  Line ends are single line feeds here.
-/

namespace RobotJobs.Toml

/-- A reader of something. -/
abbrev Reader (α : Type) := List Char → Option (α × List Char)

/-- Whether a character separates words inside a line. -/
def isGap (c : Char) : Bool :=
  c == ' ' || c == '\t'

/-- The characters without the gaps they begin with. -/
def skipGaps (cs : List Char) : List Char :=
  cs.dropWhile isGap

/-- Whether a character may stand in a text or a comment as itself. -/
def isPlain (c : Char) : Bool :=
  c == '\t' || (0x20 ≤ c.toNat && c.toNat != 0x7F)

/-- The value of a hexadecimal digit. -/
def hexDigit? (c : Char) : Option Nat :=
  if '0' ≤ c ∧ c ≤ '9' then some (c.toNat - 48)
  else if 'a' ≤ c ∧ c ≤ 'f' then some (c.toNat - 87)
  else if 'A' ≤ c ∧ c ≤ 'F' then some (c.toNat - 55)
  else none

/-- The character whose number has given hexadecimal digits. -/
def numbered? (digits : List Char) : Option Char := do
  let ds ← digits.mapM hexDigit?
  let n := ds.foldl (fun n d => n * 16 + d) 0
  if n.isValidChar then some (Char.ofNat n) else none

/-- The character with a number of a fixed count of digits. -/
def numbered (count : Nat) : Reader Char := fun cs => do
  let digits := cs.take count
  if digits.length = count then some (← numbered? digits, cs.drop count) else none

/-- What stands after a backslash. -/
def escape : Reader Char
  | 'b' :: cs => some ('\x08', cs)
  | 't' :: cs => some ('\t', cs)
  | 'n' :: cs => some ('\n', cs)
  | 'f' :: cs => some ('\x0c', cs)
  | 'r' :: cs => some ('\r', cs)
  | '"' :: cs => some ('"', cs)
  | '\\' :: cs => some ('\\', cs)
  | 'u' :: cs => numbered 4 cs
  | 'U' :: cs => numbered 8 cs
  | _ => none

/-- The rest of a text between double quotes; the number bounds its characters. -/
def escapedRest : Nat → Reader (List Char)
  | 0, _ => none
  | _ + 1, [] => none
  | n + 1, c :: cs =>
    if c = '"' then some ([], cs)
    else if c = '\\' then do
      let (c, cs) ← escape cs
      let (text, cs) ← escapedRest n cs
      some (c :: text, cs)
    else if isPlain c then do
      let (text, cs) ← escapedRest n cs
      some (c :: text, cs)
    else none

/-- The rest of a text between single quotes. -/
def literalRest : Reader (List Char) := fun cs =>
  let text := cs.takeWhile fun c => isPlain c && c != '\''
  match cs.drop text.length with
  | '\'' :: cs => some (text, cs)
  | _ => none

/-- One or two further quotes before the end of a text of several lines. -/
def furtherQuotes (quote : Char) (cs : List Char) : List Char × List Char :=
  let quotes := (cs.takeWhile (· == quote)).take 2
  (quotes, cs.drop quotes.length)

/-- The characters without the line feed they begin with. -/
def skipNewline : List Char → List Char
  | '\n' :: cs => cs
  | cs => cs

/-- The characters without the gaps and line feeds they begin with. -/
def skipSpace (cs : List Char) : List Char :=
  cs.dropWhile fun c => isGap c || c == '\n'

/-- The rest of a text of several lines between double quotes; the number bounds its
characters. -/
def escapedLinesRest : Nat → Reader (List Char)
  | 0, _ => none
  | n + 1, cs =>
    match Text.afterStart? ['"', '"', '"'] cs with
    | some cs => some (furtherQuotes '"' cs)
    | none => match cs with
      | [] => none
      | c :: cs =>
        if c = '\\' then
          match skipGaps cs with
          | '\n' :: cs => escapedLinesRest n (skipSpace cs)
          | _ => do
            let (c, cs) ← escape cs
            let (text, cs) ← escapedLinesRest n cs
            some (c :: text, cs)
        else if isPlain c || c == '\n' then do
          let (text, cs) ← escapedLinesRest n cs
          some (c :: text, cs)
        else none

/-- The rest of a text of several lines between single quotes. -/
def literalLinesRest : Reader (List Char)
  | [] => none
  | c :: cs =>
    match Text.afterStart? ['\'', '\'', '\''] (c :: cs) with
    | some cs => some (furtherQuotes '\'' cs)
    | none =>
      if isPlain c || c == '\n' then do
        let (text, cs) ← literalLinesRest cs
        some (c :: text, cs)
      else none

/-- A text on one line, between quotes of either kind. -/
def lineText : Reader String
  | '"' :: cs => (escapedRest (cs.length + 1) cs).map fun (text, cs) => (String.ofList text, cs)
  | '\'' :: cs => (literalRest cs).map fun (text, cs) => (String.ofList text, cs)
  | _ => none

/-- A text of several lines, between quotes of either kind. -/
def linesText : Reader String := fun cs =>
  match Text.afterStart? ['"', '"', '"'] cs with
  | some cs =>
    (escapedLinesRest (cs.length + 1) (skipNewline cs)).map fun (text, cs) =>
      (String.ofList text, cs)
  | none => match Text.afterStart? ['\'', '\'', '\''] cs with
    | some cs =>
      (literalLinesRest (skipNewline cs)).map fun (text, cs) => (String.ofList text, cs)
    | none => none

/-- Whether a text of several lines begins. -/
def beginsLines (cs : List Char) : Bool :=
  (Text.afterStart? ['"', '"', '"'] cs).isSome || (Text.afterStart? ['\'', '\'', '\''] cs).isSome

/-- A text of either kind. -/
def text : Reader String := fun cs =>
  if beginsLines cs then linesText cs else lineText cs

end RobotJobs.Toml
