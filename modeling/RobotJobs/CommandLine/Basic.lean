import RobotJobs.Settings.Basic

/-!
# Command lines

A run is asked to prune a job folder or to show a call tree.  Options apply to both
commands and may stand before and after the name of the command; those after it win.
Without the name of a command a run prunes, and a job belongs after the name of the
command if there is one.
-/

namespace RobotJobs

/-- What a run is asked to do, with the starting job if it is given. -/
inductive Command where
  | prune (job : Option String)
  | tree (job : Option String)
  deriving DecidableEq

/-- The options of a run. -/
structure Options where
  base : Path := Path.ofString "."
  folder : Option Path := none
  extension : Option String := none
  dryRun : Bool := false
  ascii : Bool := false
  colour : Option ColourMode := none
  verbosity : Nat := 0

/-- A command line that was understood. -/
structure CommandLine where
  job : Option String
  options : Options
  command : Option Command

/-- Why a command line is not carried out: a mistake in it, or a wish to read about the
program. -/
inductive UsageStop where
  | unknownArgument
  | argumentConflict
  | invalidValue
  | tooManyValues
  | invalidSubcommand
  | helpWanted
  | versionWanted
  deriving DecidableEq

/-- A job that was given before the name of the command. -/
structure MisplacedJob where
  job : String
  deriving DecidableEq

/-- The text about a misplaced job. -/
def MisplacedJob.message (e : MisplacedJob) : String :=
  "Job '" ++ e.job ++ "' was given before a subcommand; pass it after the subcommand."

/-- The command to carry out. -/
def CommandLine.resolve (line : CommandLine) : Except MisplacedJob Command :=
  match line.job, line.command with
  | some job, some _ => .error ⟨job⟩
  | job, none => .ok (.prune job)
  | none, some command => .ok command

end RobotJobs
