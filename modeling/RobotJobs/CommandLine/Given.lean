import RobotJobs.CommandLine.Basic

/-!
# Given options

Before the name of a command and after it options are collected separately.  At one of
the two places an option can be given once only; just the option that makes a run more
talkative counts how often it is given.  `Given.orElse` puts the later options over the
earlier ones.
-/

namespace RobotJobs

/-- The options that take a value. -/
inductive ValuedOption where
  | base
  | folder
  | extension
  | colour
  deriving DecidableEq

/-- The option with a given name. -/
def ValuedOption.ofName? (name : String) : Option ValuedOption :=
  if name = "base" then some base
  else if name = "folder" then some folder
  else if name = "ext" then some extension
  else if name = "color" then some colour
  else none

/-- The options that take no value. -/
inductive Flag where
  | dryRun
  | ascii
  | verbose
  | help
  | version
  deriving DecidableEq

namespace Flag

/-- The flag with a given name; a command has no version of its own. -/
def ofName? (outer : Bool) (name : String) : Option Flag :=
  if name = "dry-run" then some dryRun
  else if name = "ascii" then some ascii
  else if name = "verbose" then some verbose
  else if name = "help" then some help
  else if name = "version" ∧ outer then some version
  else none

/-- The flag with a given letter. -/
def ofLetter? (outer : Bool) (letter : Char) : Option Flag :=
  if letter = 'v' then some verbose
  else if letter = 'h' then some help
  else if letter = 'V' ∧ outer then some version
  else none

end Flag

/-- The options given at one place. -/
structure Given where
  base : Option Path := none
  folder : Option Path := none
  extension : Option String := none
  dryRun : Bool := false
  ascii : Bool := false
  colour : Option ColourMode := none
  verbosity : Option Nat := none

namespace Given

/-- How often an option can make a run more talkative. -/
def greatestVerbosity : Nat := 255

/-- The path that a value means; an empty value means none. -/
def path? (value : String) : Except UsageStop Path :=
  if value = "" then .error .invalidValue else .ok (Path.ofString value)

/-- The options with a value for one more. -/
def set (g : Given) (option : ValuedOption) (value : String) : Except UsageStop Given :=
  match option with
  | .base =>
    if g.base.isSome then .error .argumentConflict
    else (path? value).map fun p => { g with base := some p }
  | .folder =>
    if g.folder.isSome then .error .argumentConflict
    else (path? value).map fun p => { g with folder := some p }
  | .extension =>
    if g.extension.isSome then .error .argumentConflict
    else .ok { g with extension := some value }
  | .colour =>
    if g.colour.isSome then .error .argumentConflict
    else match ColourMode.ofName? value with
      | some mode => .ok { g with colour := some mode }
      | none => .error .invalidValue

/-- The options with one more flag. -/
def raise (g : Given) : Flag → Except UsageStop Given
  | .dryRun => if g.dryRun then .error .argumentConflict else .ok { g with dryRun := true }
  | .ascii => if g.ascii then .error .argumentConflict else .ok { g with ascii := true }
  | .verbose =>
    .ok { g with verbosity := some (min (g.verbosity.getD 0 + 1) greatestVerbosity) }
  | .help => .error .helpWanted
  | .version => .error .versionWanted

/-- The options of a later place put over those of an earlier one. -/
def orElse (later earlier : Given) : Given where
  base := later.base <|> earlier.base
  folder := later.folder <|> earlier.folder
  extension := later.extension <|> earlier.extension
  dryRun := later.dryRun || earlier.dryRun
  ascii := later.ascii || earlier.ascii
  colour := later.colour <|> earlier.colour
  verbosity := later.verbosity <|> earlier.verbosity

/-- The options of a run for which these are given. -/
def options (g : Given) : Options where
  base := g.base.getD (Path.ofString ".")
  folder := g.folder
  extension := g.extension
  dryRun := g.dryRun
  ascii := g.ascii
  colour := g.colour
  verbosity := g.verbosity.getD 0

end Given

end RobotJobs
