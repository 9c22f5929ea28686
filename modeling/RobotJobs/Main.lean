import RobotJobs.Run.Program
import RobotJobs.Settings.Entries
import RobotJobs.Storage.Snapshot

/-!
# The command

The program with the file system, the streams and the environment of the operating system,
and with TOML as the language of settings files.  A run looks at the job folder once, before
the call tree is built.
-/

namespace RobotJobs

/-- The refusal that an error of the operating system tells of. -/
def IoFailure.ofError : IO.Error → IoFailure
  | .noFileOrDirectory .. => noEntry
  | .noSuchThing (some _) .. => noEntry
  | .permissionDenied _ code details =>
    ⟨.denied, details ++ " (os error " ++ toString code ++ ")"⟩
  | .inappropriateType _ code details | .invalidArgument _ code details
  | .resourceExhausted _ code details | .noSuchThing _ code details
  | .alreadyExists _ code details | .interrupted _ code details
  | .otherError code details | .unsatisfiedConstraints code details
  | .illegalOperation code details | .unsupportedOperation code details
  | .resourceBusy code details | .resourceVanished code details
  | .hardwareFault code details | .protocolError code details
  | .timeExpired code details => ⟨.other, details ++ " (os error " ++ toString code ++ ")"⟩
  | .unexpectedEof => ⟨.other, "unexpected end of file"⟩
  | .userError text => ⟨.other, text⟩

/-- The answer of an operation. -/
def answerOf {α : Type} (action : IO α) : IO (Except IoFailure α) := do
  match ← action.toBaseIO with
  | .ok a => pure (.ok a)
  | .error e => pure (.error (.ofError e))

/-- The variables that a run asks for. -/
def askedVariables : List String :=
  Terminal.buildVariables ++ ["HOME", "XDG_CONFIG_HOME", "TERM", "NO_COLOR", "RUST_LOG",
    "JOBPRUNE_FOLDER", "JOBPRUNE_EXTENSION", "JOBPRUNE_DIRECTIVE", "JOBPRUNE_UNICODE",
    "JOBPRUNE_COLOR"]

/-- The environment of the process. -/
def processEnvironment : IO Environment := do
  let values ← askedVariables.mapM fun name => do pure (name, ← IO.getEnv name)
  pure ⟨values.filterMap fun (name, value) => value.map fun v => (name, v)⟩

/-- The bytes of a file. -/
def readBytes (path : Path) : IO (Except IoFailure (List UInt8)) := do
  pure ((← answerOf (IO.FS.readBinFile path.display)).map (·.toList))

/-- Whether a path leads to a file. -/
def isFileOnDisk (path : Path) : IO Bool := do
  let here ← IO.currentDir
  match ← answerOf (here / path.display).metadata with
  | .ok data => pure (data.type matches .file)
  | .error _ => pure false

/-- What is found under the path of a settings file. -/
def findOnDisk (path : Path) : IO FoundFile := do
  if ← isFileOnDisk path then pure (some (← readBytes path)) else pure none

/-- The files in a folder, in order. -/
def listOnDisk (path : Path) : IO (Except IoFailure (List Path)) := do
  let here ← IO.currentDir
  match ← answerOf (here / path.display).readDir with
  | .error failure => pure (.error failure)
  | .ok found =>
    let paths := found.toList.map fun e => path.join (Path.ofString e.fileName)
    let files ← paths.filterM isFileOnDisk
    pure (.ok (files.mergeSort fun p q => !(decide (q.place.Before p.place))))

/-- A snapshot of a job folder. -/
def snapshotOf (folder : JobFolder) : IO Snapshot := do
  let here ← IO.currentDir
  let isFolder ← (here / folder.path.display).isDir
  let listing ← listOnDisk folder.path
  let answers ← (listing.toOption.getD []).mapM fun path => do
    pure (path, (← readBytes path).mapError fun failure => StorageFault.ofIo failure path)
  pure { folder := folder.path, isFolder, answers
         listing := listing.mapError fun failure => .ofIo failure folder.path }

/-- A line of the input. -/
def readInputLine : IO (Except IoFailure String) := do
  let input ← IO.getStdin
  match ← answerOf input.getLine with
  | .ok line => pure (.ok line)
  | .error _ => pure (.error .notText)

/-- The operations of a run in the process. -/
def processHost : IO (Host IO) := do
  let output ← IO.getStdout
  let errors ← IO.getStderr
  let environment ← processEnvironment
  pure {
    name := (← IO.appPath).toString
    environment
    onTerminal := ← output.isTty
    coloured := environment.paint
    configFolder := environment.configFolder?
    readSettings := Settings.ofToml
    found := findOnDisk
    view := fun folder => do pure (← snapshotOf folder).view
    remove := fun path => do
      let answer ← answerOf (IO.FS.removeFile path.display)
      pure (answer.mapError fun failure => .ofIo failure path)
    readLine := readInputLine
    print := output.putStr
    printError := errors.putStr }

end RobotJobs

/-- Prunes a folder of robot jobs. -/
def main (arguments : List String) : IO UInt32 := do
  RobotJobs.Program.run (← RobotJobs.processHost) arguments
