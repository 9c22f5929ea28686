import RobotJobs.Path
import RobotJobs.Text.EditDistance
import RobotJobs.Text.Search

/-!
# Notices about settings

A key that nobody knows and a file that cannot be used do not end a run; the user is told
about them.  An unknown key is reported with the first line that holds its text and with
the known key nearest to it, if at most two edits of bytes lie between them; of several
nearest keys the first is taken.
-/

namespace RobotJobs

/-- Something about settings that the user is told. -/
inductive Notice where
  | unknownKey (key : String) (file : Path) (line : Option Nat) (suggestion : Option String)
  | skipped (file : Path) (reason : String)
  deriving DecidableEq

/-- All known keys, in the order in which they are suggested. -/
def knownKeys : List String :=
  ["jobs", "folder", "extension", "directive", "output", "color", "unicode"]

/-- The number of edits that lead from the bytes of one key to those of another. -/
def keyDistance (a b : String) : Nat :=
  Text.editDistance (Text.toBytes a) (Text.toBytes b)

/-- The best of some keys for an unknown one with its distance: the first of the nearest. -/
def nearestKey? (key : String) : List String → Option (String × Nat)
  | [] => none
  | candidate :: rest =>
    let d := keyDistance key candidate
    match nearestKey? key rest with
    | none => some (candidate, d)
    | some (other, d') => if d ≤ d' then some (candidate, d) else some (other, d')

/-- The known key that is suggested for an unknown one. -/
def suggestedKey? (key : String) : Option String :=
  match nearestKey? key knownKeys with
  | some (candidate, d) => if d ≤ 2 then some candidate else none
  | none => none

namespace Notice

/-- The notice about an unknown key of a file with a given content. -/
def ofKey (file : Path) (content : List Char) (key : String) : Notice :=
  .unknownKey key file (Text.lineHolding? key.toList content) (suggestedKey? key)

/-- The text of a notice. -/
def message : Notice → String
  | unknownKey key file line suggestion =>
    "unknown config key '" ++ key ++ "' in " ++ file.display ++
      (match line with
        | some line => ":" ++ toString line
        | none => "") ++
      (match suggestion with
        | some suggestion => " (did you mean '" ++ suggestion ++ "'?)"
        | none => "")
  | skipped file reason => "ignoring config " ++ file.display ++ ": " ++ reason

end Notice

end RobotJobs
