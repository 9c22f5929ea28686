import RobotJobs.Settings.Basic
import RobotJobs.Settings.Fault
import RobotJobs.Toml.Reader

/-!
# Settings in a document

The table `jobs` holds the keys `folder`, `extension` and `directive`, the table `output`
the keys `color` and `unicode`.  Each of the two may be an array of the values in this
order instead; what is missing keeps its value and what is too much is ignored.  A colour
mode is a text, or a table whose only key names it and has an empty value.

Entries are taken over one after the other and the first fault ends this.  Keys that
nobody knows do no harm; they are listed, with the name of their table before them.
-/

namespace RobotJobs

/-- Settings together with the paths of the unknown keys that were met on the way to them. -/
abbrev Taken := Settings × List String

/-- What was taken from a table, whose name is put before the unknown keys. -/
def Taken.under (name : String) (taken : Taken) : Taken :=
  (taken.1, taken.2.map (name ++ "." ++ ·))

/-- The key under which a date or time keeps its text. -/
def momentKey : String := "$__toml_private_datetime"

namespace Toml.Node

/-- The text of a node. -/
def asText (wanted : Wanted) : Node → Except DocumentFault String
  | .text s => .ok s
  | node => .error (.wrongKind node.foundName wanted)

/-- The truth value of a node. -/
def asTruth : Node → Except DocumentFault Bool
  | .truth b => .ok b
  | node => .error (.wrongKind node.foundName .truth)

/-- The colour mode that a node names. -/
def asColour : Node → Except DocumentFault ColourMode
  | .text name => (ColourMode.ofName? name).elim (.error (.unknownColour name)) .ok
  | .table _ [(name, content)] => do
    let mode ← (ColourMode.ofName? name).elim (.error (.unknownColour name)) .ok
    if content.isVoid then .ok mode else .error .malformed
  | _ => .error .malformed

end Toml.Node

namespace Settings

/-- The settings after entries of a table have been taken over by `take`. -/
def takeEntries (take : Settings → String → Toml.Node → Except DocumentFault Taken) :
    Settings → Toml.Entries → Except DocumentFault Taken
  | s, [] => .ok (s, [])
  | s, (key, node) :: es => do
    let (s, unknown) ← take s key node
    let (s, unknown') ← takeEntries take s es
    .ok (s, unknown ++ unknown')

/-- The settings with an entry of the table `jobs` taken over. -/
def takeJobsEntry (s : Settings) (key : String) (node : Toml.Node) :
    Except DocumentFault Taken :=
  if key = "folder" then do
    .ok ({ s with folder := Path.ofString (← node.asText .path) }, [])
  else if key = "extension" then do
    .ok ({ s with extension := ← node.asText .text }, [])
  else if key = "directive" then do
    .ok ({ s with marker := ← node.asText .text }, [])
  else .ok (s, [key])

/-- The settings with an entry of the table `output` taken over. -/
def takeOutputEntry (s : Settings) (key : String) (node : Toml.Node) :
    Except DocumentFault Taken :=
  if key = "color" then do
    .ok ({ s with colour := ← node.asColour }, [])
  else if key = "unicode" then do
    .ok ({ s with unicode := ← node.asTruth }, [])
  else .ok (s, [key])

/-- The settings with a table, or an array of values for its keys, taken over. -/
def takeTable (take : Settings → String → Toml.Node → Except DocumentFault Taken)
    (keys : List String) (wanted : Wanted) (s : Settings) (node : Toml.Node) :
    Except DocumentFault Taken :=
  match node with
  | .table _ entries => takeEntries take s entries
  | .moment => .ok (s, [momentKey])
  | node => match node.items? with
    | some items => takeEntries take s (keys.zip items)
    | none => .error (.wrongKind node.foundName wanted)

/-- The settings with an entry of the whole document taken over. -/
def takeEntry (s : Settings) (key : String) (node : Toml.Node) :
    Except DocumentFault Taken :=
  if key = "jobs" then
    (takeTable takeJobsEntry ["folder", "extension", "directive"] .jobsTable s node).map
      (Taken.under "jobs")
  else if key = "output" then
    (takeTable takeOutputEntry ["color", "unicode"] .outputTable s node).map
      (Taken.under "output")
  else .ok (s, [key])

/-- The settings of a document with the paths of its unknown keys. -/
def ofEntries (es : Toml.Entries) : Except DocumentFault Taken :=
  takeEntries takeEntry {} es

/-- The settings of a TOML text with the paths of its unknown keys, or the text of what is
wrong with it. -/
def ofToml (content : List Char) : Except String Taken :=
  match Toml.parse? content with
  | none => .error DocumentFault.malformed.message
  | some es => (ofEntries es).mapError DocumentFault.message

end Settings

end RobotJobs
