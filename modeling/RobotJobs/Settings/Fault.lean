import RobotJobs.Text.Quoted
import RobotJobs.Toml.Node

/-!
# What can be wrong with a settings document

A text may be no TOML at all, or may have a value of the wrong kind or a colour mode without
meaning.  The text of a fault says what was found and what was expected, but not where.
-/

namespace RobotJobs

/-- What a value has to be. -/
inductive Wanted where
  | path
  | text
  | truth
  | jobsTable
  | outputTable
  deriving DecidableEq

/-- The name of what a value has to be. -/
def Wanted.name : Wanted → String
  | path => "path string"
  | text => "a string"
  | truth => "a boolean"
  | jobsTable => "struct JobsConfig"
  | outputTable => "struct OutputConfig"

/-- How a value is named that is not of the wanted kind. -/
def Toml.Node.foundName : Toml.Node → String
  | .text s => "string " ++ Text.quoted s
  | .integer n => "integer \x60" ++ toString n ++ "\x60"
  | .decimal x => "floating point \x60" ++ x.text ++ "\x60"
  | .truth b => "boolean \x60" ++ (if b then "true" else "false") ++ "\x60"
  | .moment | .table .. => "map"
  | .array _ | .sections _ => "sequence"

/-- Why a text gives no settings. -/
inductive DocumentFault where
  | malformed
  | wrongKind (found : String) (wanted : Wanted)
  | unknownColour (name : String)
  deriving DecidableEq

/-- The text of a fault. -/
def DocumentFault.message : DocumentFault → String
  | malformed => "TOML parse error"
  | wrongKind found wanted => "invalid type: " ++ found ++ ", expected " ++ wanted.name
  | unknownColour name =>
    "unknown variant \x60" ++ name ++
      "\x60, expected one of \x60auto\x60, \x60always\x60, \x60never\x60"

end RobotJobs
