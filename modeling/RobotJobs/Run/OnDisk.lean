import RobotJobs.Run.Program
import RobotJobs.Storage.Disk

/-!
# Runs on a disk

A run on a `Disk` is a pure function: it takes the disk, the bytes of the input and what
has been written so far, and gives all of this as the run leaves it.  How settings files are
read is given; the rest follows from the environment.
-/

namespace RobotJobs

/-- What is found under the path of a settings file on a disk. -/
def Disk.found (disk : Disk) (path : Path) : FoundFile :=
  if disk.isFile path then some (disk.fileContent path) else none

/-- A disk, the rest of the input, and what has been written. -/
structure Desk where
  disk : Disk
  input : List UInt8 := []
  output : String := ""
  errors : String := ""

namespace Desk

/-- The first line of some bytes, with its end, and the bytes after it. -/
def splitLine (bytes : List UInt8) : List UInt8 × List UInt8 :=
  let line := bytes.takeWhile (· ≠ 10)
  match bytes.drop line.length with
  | [] => (line, [])
  | b :: rest => (line ++ [b], rest)

/-- The text of a line. -/
def textOf (bytes : List UInt8) : Except IoFailure String :=
  match Text.decode? bytes with
  | some cs => .ok (String.ofList cs)
  | none => .error .notText

/-- The operations of a run on a disk. -/
def host (readSettings : SettingsReader) (environment : Environment) : Host (StateM Desk) where
  name := LogFilter.program
  environment
  onTerminal := false
  coloured := environment.paint
  configFolder := environment.configFolder?
  readSettings
  found path := do pure ((← get).disk.found path)
  view _ := do pure (← get).disk.view
  remove path := modifyGet fun desk =>
    let (answer, disk) := desk.disk.remove path
    (answer, { desk with disk })
  readLine := modifyGet fun desk =>
    let (line, input) := splitLine desk.input
    (textOf line, { desk with input })
  print text := modify fun desk => { desk with output := desk.output ++ text }
  printError text := modify fun desk => { desk with errors := desk.errors ++ text }

/-- A whole run, with its exit code. -/
def run (desk : Desk) (readSettings : SettingsReader) (environment : Environment)
    (arguments : List String) : UInt32 × Desk :=
  (Program.run (host readSettings environment) arguments).run desk

end Desk

end RobotJobs
