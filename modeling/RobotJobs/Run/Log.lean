import RobotJobs.Call.Analysis
import RobotJobs.Pattern.Readable
import RobotJobs.Settings.Environment
import RobotJobs.Sweep
import RobotJobs.Text.Alphanumeric
import RobotJobs.Text.Quoted
import RobotJobs.Text.Split

/-!
# The log of a run

A run keeps a log for the operator beside its report: how it was called, which settings and
which folder it uses, what happens while calls are followed and what became of files that
had to go.  A filter says which records are shown.  It follows from
the verbosity, or from a variable that lists levels, each for everything, for the targets
that begin with a given text, or for records with a given field; the most special of them
decides.
-/

namespace RobotJobs

/-- The weight of a log record. -/
inductive LogLevel where
  | error
  | warn
  | info
  | debug
  | trace
  deriving DecidableEq

namespace LogLevel

/-- The rank of a level; the weightiest has the least. -/
def rank : LogLevel → Nat
  | error => 1
  | warn => 2
  | info => 3
  | debug => 4
  | trace => 5

/-- The name of a level. -/
def name : LogLevel → String
  | error => "error"
  | warn => "warn"
  | info => "info"
  | debug => "debug"
  | trace => "trace"

/-- The label of a level, five characters wide. -/
def label : LogLevel → String
  | error => "ERROR"
  | warn => " WARN"
  | info => " INFO"
  | debug => "DEBUG"
  | trace => "TRACE"

/-- The lightest level that is shown at a verbosity. -/
def ofVerbosity : Nat → LogLevel
  | 0 => error
  | 1 => info
  | 2 => debug
  | _ => trace

/-- All levels. -/
def all : List LogLevel := [error, warn, info, debug, trace]

end LogLevel

/-- A line of the log, with the part of the program and the line in it that it comes from. -/
structure LogRecord where
  level : LogLevel
  target : String
  place : Nat
  message : String
  fields : List (String × String)

namespace LogRecord

/-- How a character of a message is written: those that steer a terminal by their number. -/
def messageChar (c : Char) : List Char :=
  if c ∈ ['\x07', '\x08', '\x0c', '\x1b', '\x7f'] then
    ['\\', 'x'] ++ List.replicate (if c.toNat < 16 then 1 else 0) '0' ++ Nat.toDigits 16 c.toNat
  else if 0x80 ≤ c.toNat ∧ c.toNat ≤ 0x9F then
    ['\\', 'u', '\x7b'] ++ Nat.toDigits 16 c.toNat ++ ['\x7d']
  else [c]

/-- The origin of a record as far as it is shown at a verbosity. -/
def origin (r : LogRecord) (verbosity : Nat) : String :=
  (if verbosity ≥ 2 then r.target ++ ": " else "") ++
    (if verbosity ≥ 3 then toString r.place ++ ": " else "")

/-- The text of a record at a verbosity. -/
def line (r : LogRecord) (verbosity : Nat) : String :=
  r.level.label ++ " " ++ r.origin verbosity ++
    String.ofList (r.message.toList.flatMap messageChar) ++
    String.join (r.fields.map fun (name, value) => " " ++ name ++ "=" ++ value)

/-- The target of what is recorded at the start. -/
def startTarget : String := "jobprune::logging"

/-- The target of what is recorded about settings. -/
def settingsTarget : String := "jobprune::config::loader"

/-- The target of what is recorded about a session. -/
def sessionTarget : String := "jobprune::commands::setup"

/-- The target of what is recorded while calls are followed. -/
def callTarget : String := "jobprune::domain::services::graph_builder"

/-- The target of what is recorded during a sweep. -/
def sweepTarget : String := "jobprune::application::clean::use_case"

/-- The records of a start with a verbosity and with some words. -/
def ofStart (verbosity : Nat) (words : List String) : List LogRecord := [
  ⟨.debug, startTarget, 31,
    "jobprune started with verbosity level: " ++ toString verbosity, []⟩,
  ⟨.trace, startTarget, 32,
    "Full CLI args: [" ++ String.intercalate ", " (words.map Text.quoted) ++ "]", []⟩]

/-- The record of the use of a settings file. -/
def ofSettingsFile (file : Path) : LogRecord :=
  ⟨.debug, settingsTarget, 110, "loaded config", [("path", file.display)]⟩

/-- The record of the choice of a job folder. -/
def ofFolder (folder : JobFolder) : LogRecord :=
  ⟨.debug, sessionTarget, 65, "resolved job folder",
    [("folder", folder.path.display), ("extension", Text.quoted folder.extension),
      ("directive", Text.quoted folder.marker)]⟩

/-- The record of a problem.  The place tells whether the job has no file in the folder, its
file is not listed or a listed file could not be read. -/
def ofProblem (listing : Option (List String)) (p : Problem) : LogRecord where
  level := .warn
  target := callTarget
  place := match p with
    | .notFound job fileName _ =>
      if !job.isFileStem then 175 else if !FileView.isListed listing fileName then 186 else 196
    | .unreadable .. => 196
  message := if p.job.isFileStem then p.message else "job name points outside the job folder"
  fields := [("job", p.job.text)]

/-- The record of an event in a folder where some file names are listed. -/
def ofEvent (listing : Option (List String)) : CallEvent → LogRecord
  | .reference caller called =>
    ⟨.trace, callTarget, 204, "job reference",
      [("caller", caller.text), ("called", called.text)]⟩
  | .again job => ⟨.trace, callTarget, 170, "already visited", [("job", job.text)]⟩
  | .problem p => ofProblem listing p

/-- The records of an analysis. -/
def ofAnalysis (listing : Option (List String)) (a : Analysis) : List LogRecord :=
  a.events.map (ofEvent listing) ++
    [⟨.debug, callTarget, 152, "built job tree",
      [("root", a.tree.root.text), ("jobs", toString a.reachable.length),
        ("missing", toString a.problems.length)]⟩]

/-- The record of an outcome, if there is one. -/
def ofOutcome? (o : Outcome) : Option LogRecord :=
  match o.fate with
  | .deleted =>
    some ⟨.info, sweepTarget, 73, "deleted unreferenced job file", [("file", o.fileName)]⟩
  | .failed reason =>
    some ⟨.warn, sweepTarget, 77, "could not delete job file",
      [("file", o.fileName), ("error", reason)]⟩
  | _ => none

end LogRecord

/-- A limit for the records of some targets, and of these perhaps only those with a certain
field: the ones no lighter than a level are shown, or none.  A limit that holds inside spans
is about no record, because a run has no spans. -/
structure LogLimit where
  target : String := ""
  field : Option String := none
  insideSpans : Bool := false
  lightest : Option LogLevel
  deriving DecidableEq

namespace LogLimit

/-- The number that a word writes in decimal digits, perhaps with a plus sign. -/
def number? (word : List Char) : Option Nat :=
  let digits := if word.head? = some '+' then word.tail else word
  if digits = [] ∨ !digits.all Char.isDigit then none
  else some (digits.foldl (fun n d => n * 10 + (d.toNat - '0'.toNat)) 0)

/-- The level that a word names or counts, `off` being none of them. -/
def level? (word : String) : Option (Option LogLevel) :=
  match number? word.toList with
  | some 0 => some none
  | some n => (LogLevel.all.find? fun l => l.rank = n).map some
  | none =>
    let word := Text.lowered word
    if word = "off" then some none else (LogLevel.all.find? fun l => l.name = word).map some

/-- Whether a character may begin a limit. -/
def mayBegin (c : Char) : Bool :=
  c == '[' || c == '-' || c == ':' || c == '_' || Text.isAlphanumeric c

/-- The position of the first of some marks, from a given one on. -/
def markFrom? (bytes : List UInt8) (start : Nat) (marks : List Char) : Option Nat :=
  ((bytes.drop start).findIdx? fun b => marks.any fun c => c.toNat = b.toNat).map (start + ·)

/-- Whether a text may end a number: it is empty or an exponent. -/
def isExponent : List Char → Bool
  | [] => true
  | c :: cs =>
    let digits := if cs.head? == some '+' || cs.head? == some '-' then cs.tail else cs
    c ∈ ['e', 'E'] && !digits.isEmpty && digits.all Char.isDigit

/-- Whether a text is a number without a sign, perhaps infinite or none at all. -/
def isNumeral (cs : List Char) : Bool :=
  let whole := cs.takeWhile Char.isDigit
  let (places, rest) := match cs.drop whole.length with
    | '.' :: rest => (rest.takeWhile Char.isDigit, rest.dropWhile Char.isDigit)
    | rest => ([], rest)
  Text.lowered (String.ofList cs) ∈ ["inf", "infinity", "nan"] ||
    (!(whole ++ places).isEmpty && isExponent rest)

/-- Whether a field can be compared with a value: a number or a pattern.  Only a number with
a plus sign is no pattern. -/
def isValue (value : List Char) : Bool :=
  (value.head? == some '+' && isNumeral value.tail) || Pattern.isReadable value

/-- The value that a field is to have, if any. -/
def value? (field : String) : Option (List Char) :=
  (Text.segments '=' field.toList)[1]?

/-- The limit that a text describes: a level, or `target[span{field=value}]=level`, in which
every part but the brackets may be missing and so may the brackets with all inside.  The marks
between the parts are looked for in the text without the blanks around it, but the parts are
what the whole text has at these positions. -/
def ofText? (text : String) : Option LogLimit :=
  let bytes := Text.toBytes (Text.trimmed text)
  let part (start stop : Nat) := Text.ofBytes (((Text.toBytes text).take stop).drop start)
  let after (start : Nat) := Text.ofBytes ((Text.toBytes text).drop start)
  let isAt (mark : Char) (i : Nat) := markFrom? bytes i [mark] = some i
  let leveled (limit : LogLimit) (start : Nat) : Option LogLimit :=
    if after start = "" then some limit
    else (level? (after start)).map fun lightest => { limit with lightest }
  let ended (limit : LogLimit) (start : Nat) : Option LogLimit :=
    if bytes.length ≤ start then some limit
    else if isAt '=' start then leveled limit (start + 1)
    else none
  if !(((Text.trimmed text).toList.head?.map mayBegin).getD false) then none
  else match markFrom? bytes 0 ['=', '['] with
    | none => match level? text with
      | some lightest => some { lightest }
      | none => some { target := text, lightest := some .trace }
    | some i =>
      let limit : LogLimit := { target := part 0 i, lightest := some .trace }
      if isAt '=' i then leveled limit (i + 1)
      else match markFrom? bytes (i + 1) ['\x7b', ']'] with
        | none => none
        | some j =>
          if isAt ']' j then ended { limit with insideSpans := true } (j + 1)
          else match markFrom? bytes (j + 1) ['\x7d'] with
            | none => none
            | some k =>
              let field := part (j + 1) k
              if k = j + 1 ∨ !isAt ']' (k + 1) ∨ !(value? field).all isValue then none
              else ended { limit with
                field := some field
                insideSpans := j ≠ i + 1 || (value? field).isSome } (k + 2)

/-- Whether a limit is about a record. -/
def covers (limit : LogLimit) (r : LogRecord) : Bool :=
  limit.target.toList.isPrefixOf r.target.toList && !limit.insideSpans &&
    limit.field.all fun name => name = "message" || r.fields.any (·.1 = name)

/-- Whether a limit is not less special than another one about the same record. -/
def atLeastAsSpecial (limit other : LogLimit) : Bool :=
  if limit.target.length = other.target.length then
    match other.field, limit.field with
    | none, _ => true
    | some _, none => false
    | some a, some b => a ≤ b
  else other.target.length < limit.target.length

end LogLimit

/-- The limits of a log. -/
abbrev LogFilter := List LogLimit

namespace LogFilter

/-- The target that begins the target of every record. -/
def program : String := "jobprune"

/-- The filter that a variable describes. -/
def ofVariable? (value : String) : Option LogFilter := do
  let words := (Text.segments ',' value.toList).filter (!·.isEmpty)
  let limits ← words.mapM fun word => LogLimit.ofText? (String.ofList word)
  some (if limits.isEmpty then [{ lightest := some .error }] else limits)

/-- The filter of a run. -/
def choose (env : Environment) (verbosity : Nat) : LogFilter :=
  ((env.get? "RUST_LOG").bind ofVariable?).getD
    [{ target := program, lightest := some (.ofVerbosity verbosity) }]

/-- The limit that decides about a record: of the most special ones the last. -/
def deciding? (filter : LogFilter) (r : LogRecord) : Option LogLimit :=
  (filter.filter (·.covers r)).foldl (fun best limit => match best with
    | none => some limit
    | some other => if limit.atLeastAsSpecial other then some limit else some other) none

/-- Whether a filter shows a record. -/
def shows (filter : LogFilter) (r : LogRecord) : Bool :=
  match (filter.deciding? r).bind (·.lightest) with
  | some lightest => r.level.rank ≤ lightest.rank
  | none => false

end LogFilter

end RobotJobs
