import RobotJobs.CommandLine.Reader
import RobotJobs.Report.Calls
import RobotJobs.Report.Sweep
import RobotJobs.Run.Host
import RobotJobs.Run.Log
import RobotJobs.Run.Session

/-!
# The program

`Program.run` is a whole run, over any `Host`.  It reads the command line, opens a session
and shows the notices, finds out the starting job, shows its call tree and, if it is to
prune, sweeps the folder and shows what happened.  The report goes to the output; notices,
problems and errors go to the error output.
-/

namespace RobotJobs

/-- Why a run ends without success. -/
inductive RunStop where
  | misplacedJob (e : MisplacedJob)
  | noInput (failure : IoFailure)
  | error (e : RunError)

/-- What is shown for the end of a run. -/
def RunStop.shown (paint : Paint) : RunStop → String
  | misplacedJob e => shownError e.message false paint
  | noInput failure => shownError failure.text false paint
  | error e => e.shown paint

namespace Program

/-- The name and the version of the program. -/
def versionLine : String := "jobprune 0.3.1\n"

/-- How the program is used. -/
def usage : String :=
  unlines ["Usage: jobprune [OPTIONS] [JOB]",
    "       jobprune [OPTIONS] prune [JOB]",
    "       jobprune [OPTIONS] tree [JOB]",
    "",
    "Options:",
    "      --base <BASE>      folder that the job folder and its settings belong to",
    "      --folder <FOLDER>  job folder",
    "      --ext <EXT>        extension of job files",
    "      --dry-run          delete nothing",
    "      --ascii            draw the tree in ASCII characters",
    "      --color <COLOR>    auto, always or never",
    "  -v, --verbose...       report more",
    "  -h, --help             print help",
    "  -V, --version          print version"]

/-- The question for the starting job. -/
def prompt : String := "Please enter the starting JOB name: "

variable {m : Type → Type} [Monad m]

/-- What the log of a run shows of some records at a verbosity, as lines. -/
def logLines (host : Host m) (verbosity : Nat) (records : List LogRecord) : String :=
  let filter := LogFilter.choose host.environment verbosity
  unlines ((records.filter filter.shows).map (·.line verbosity))

/-- The session of a run, after its notices have been shown. -/
def openSession (host : Host m) (options : Options) : m Session := do
  let env := host.environment
  let files ← (Settings.candidates (some options.base) host.configFolder).mapM fun file => do
    pure (file, ← host.found file)
  let look (file : Path) : FoundFile := (files.lookup file).join
  let session := Session.open host.readSettings look host.configFolder env
    (.ofEnvironment env host.onTerminal) options
  let paint := host.paint session.look.colour
  let loaded := session.settingsFile.toList.map LogRecord.ofSettingsFile
  host.printError (logLines host options.verbosity loaded)
  host.printError (unlines (session.notices.map fun n => Tag.warning.line n.message paint))
  host.printError (logLines host options.verbosity [.ofFolder session.folder])
  pure session

/-- The starting job as it was given, or as it is answered when asked for. -/
def jobInput (host : Host m) (job : Option String) : ExceptT RunStop m String := do
  match job with
  | some job => pure job
  | none =>
    host.printError prompt
    match ← host.readLine with
    | .ok line => pure line
    | .error failure => throw (.noInput failure)

/-- The analysis of the starting job, after it has been reported. -/
def reportCalls (host : Host m) (session : Session) (view : FileView) (input : String) :
    ExceptT RunStop m Analysis := do
  let root ← match view.resolveRoot session.folder input with
    | .ok root => pure root
    | .error e => throw (.error e)
  let paint := host.paint session.look.colour
  host.print (startLine root)
  let analysis := view.analyze session.folder root
  let records := LogRecord.ofAnalysis (view.fileNames? session.folder.path) analysis
  host.printError (logLines host session.look.verbosity records)
  host.printError (problemLines analysis.problems paint)
  host.print (analysis.treeReport session.look.glyphs paint)
  if session.look.verbosity > 0 then host.print (analysis.sizeReport paint)
  pure analysis

/-- The sweep after an analysis, with its report. -/
def reportSweep (host : Host m) (session : Session) (view : FileView) (dryRun : Bool)
    (analysis : Analysis) : ExceptT RunStop m Unit := do
  let plan ← match SweepEntry.all view session.folder with
    | .ok plan => pure plan
    | .error e => throw (.error e)
  let paint := host.paint session.look.colour
  let outcomes ← (sweep host.remove analysis.reachable dryRun plan : m (List Outcome))
  let records := outcomes.filterMap LogRecord.ofOutcome?
  host.printError (logLines host session.look.verbosity records)
  host.print (sweepReport session.folder.extension outcomes dryRun paint)

/-- A command carried out. -/
def carryOut (host : Host m) (options : Options) (command : Command) :
    ExceptT RunStop m Unit := do
  let session ← (openSession host options : m Session)
  match command with
  | .tree job =>
    let input ← jobInput host job
    discard <| reportCalls host session (← host.view session.folder) input
  | .prune job =>
    let input ← jobInput host job
    let view ← host.view session.folder
    let analysis ← reportCalls host session view input
    reportSweep host session view options.dryRun analysis

/-- A command line carried out. -/
def carryOutLine (host : Host m) (line : CommandLine) : ExceptT RunStop m Unit := do
  match line.resolve with
  | .ok command => carryOut host line.options command
  | .error e => throw (.misplacedJob e)

/-- A whole run, with its exit code. -/
def run (host : Host m) (arguments : List String) : m UInt32 := do
  match CommandLine.read arguments with
  | .error .versionWanted =>
    host.print versionLine
    pure 0
  | .error .helpWanted =>
    host.print usage
    pure 0
  | .error _ =>
    host.printError usage
    pure 2
  | .ok line =>
    let verbosity := line.options.verbosity
    host.printError (logLines host verbosity (LogRecord.ofStart verbosity (host.name :: arguments)))
    match ← (carryOutLine host line).run with
    | .ok () => pure 0
    | .error stop =>
      let terminal := Terminal.ofEnvironment host.environment host.onTerminal
      host.printError (stop.shown (host.paint terminal.wantsColour))
      pure 1

end Program

end RobotJobs
