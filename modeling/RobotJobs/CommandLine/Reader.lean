import RobotJobs.CommandLine.Given
import RobotJobs.Text.Ends

/-!
# Reading a command line

Arguments are read from left to right and the first mistake is reported.  An argument is
an option with a long name, a cluster of letters, or a plain word; after `--` every
argument is a plain word.  A plain word is the value of an option that waits for one, the
name of a command as long as none was given, or the starting job.

An option whose value is the next argument is set only when another option or the
starting job follows, or at the end.  So a later mistake of another kind is reported
before a mistake in its value.
-/

namespace RobotJobs

/-- The ways to write an argument. -/
inductive ArgumentForm where
  | long (name : String) (value : Option String)
  | letters (letters : List Char)
  | word (text : String)

/-- How an argument is written. -/
def ArgumentForm.of (argument : String) : ArgumentForm :=
  match argument.toList with
  | '-' :: '-' :: cs =>
    let name := cs.takeWhile (· ≠ '=')
    match cs.drop name.length with
    | _ :: value => .long (String.ofList name) (some (String.ofList value))
    | [] => .long (String.ofList name) none
  | '-' :: c :: cs => .letters (c :: cs)
  | _ => .word argument

/-- What was read at one place: the options, an option that waits for its value or to be
set, and the starting job. -/
structure Collected where
  given : Given := {}
  waiting : Option (ValuedOption × Option String) := none
  job : Option String := none

namespace Collected

/-- What was read, with the waiting option set. -/
def settle (r : Collected) : Except UsageStop Collected :=
  match r.waiting with
  | none => .ok r
  | some (_, none) => .error .invalidValue
  | some (option, some value) =>
    (r.given.set option value).map fun given => { r with given, waiting := none }

/-- Whether the next word is the value of an option. -/
def wantsValue (r : Collected) : Bool :=
  r.waiting matches some (_, none)

/-- What was read, with a flag raised. -/
def raise (r : Collected) (flag : Flag) : Except UsageStop Collected := do
  let r ← r.settle
  .ok { r with given := ← r.given.raise flag }

/-- What was read, with the starting job. -/
def takeJob (r : Collected) (job : String) : Except UsageStop Collected :=
  if r.job.isSome then .error .unknownArgument
  else r.settle.map fun r => { r with job := some job }

/-- What was read, with an option that has a long name. -/
def takeLong (outer : Bool) (r : Collected) (name : String) (value : Option String) :
    Except UsageStop Collected :=
  match ValuedOption.ofName? name with
  | some option => do
    let r ← r.settle
    match value with
    | some value => .ok { r with given := ← r.given.set option value }
    | none => .ok { r with waiting := some (option, none) }
  | none => match Flag.ofName? outer name with
    | some flag => if value.isSome then .error .tooManyValues else r.raise flag
    | none => .error .unknownArgument

/-- What was read, with flags given by their letters. -/
def takeLetters (outer : Bool) (r : Collected) (letters : List Char) : Except UsageStop Collected :=
  letters.foldlM (fun r letter => match Flag.ofLetter? outer letter with
    | some flag => r.raise flag
    | none => .error .unknownArgument) r

/-- What was read, with one more argument. -/
def take (outer : Bool) (r : Collected) (argument : String) : Except UsageStop Collected :=
  match ArgumentForm.of argument with
  | .long name value => r.takeLong outer name value
  | .letters letters => r.takeLetters outer letters
  | .word text => match r.waiting with
    | some (option, none) => .ok { r with waiting := some (option, some text) }
    | _ => r.takeJob text

/-- What was read, with plain words up to the end. -/
def takeWords (r : Collected) (words : List String) : Except UsageStop Collected := do
  (← words.foldlM takeJob r).settle

/-- What was read, with the arguments after the name of a command. -/
def takeInner (r : Collected) : List String → Except UsageStop Collected
  | [] => r.settle
  | argument :: rest =>
    if argument = "--" then r.takeWords rest
    else do (← r.take false argument).takeInner rest

end Collected

/-- The names that can stand where the name of a command can. -/
inductive CommandName where
  | prune
  | tree
  | help
  deriving DecidableEq

namespace CommandName

/-- The command name that an argument is. -/
def of? (argument : String) : Option CommandName :=
  if argument = "prune" then some prune
  else if argument = "tree" then some tree
  else if argument = "help" then some help
  else none

/-- What becomes of a wish for help, given what it is about: at most one command. -/
def helpOn : List String → UsageStop
  | [] => .helpWanted
  | [name] => if (of? name).isSome then .helpWanted else .invalidSubcommand
  | _ => .invalidSubcommand

end CommandName

namespace CommandLine

/-- The command line without the name of a command. -/
def ofPlain (r : Collected) : CommandLine :=
  ⟨r.job, r.given.options, none⟩

/-- The command line with the name of a command, before and after which something was
read. -/
def ofCommand (command : Option String → Command) (r inner : Collected) : CommandLine :=
  ⟨r.job, (inner.given.orElse r.given).options, some (command inner.job)⟩

/-- The command line of some arguments that follow what was read. -/
def readAfter (r : Collected) : List String → Except UsageStop CommandLine
  | [] => r.settle.map ofPlain
  | argument :: rest =>
    let name := if r.wantsValue then none else CommandName.of? argument
    match name with
    | some .help => .error (CommandName.helpOn rest)
    | some .prune => do
      let inner ← Collected.takeInner {} rest
      .ok (ofCommand .prune (← r.settle) inner)
    | some .tree => do
      let inner ← Collected.takeInner {} rest
      .ok (ofCommand .tree (← r.settle) inner)
    | none =>
      if argument = "--" then (r.takeWords rest).map ofPlain
      else do readAfter (← r.take true argument) rest

/-- The command line of some arguments. -/
def read (arguments : List String) : Except UsageStop CommandLine :=
  readAfter {} arguments

end CommandLine

end RobotJobs
