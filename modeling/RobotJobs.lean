import RobotJobs.Call.Analysis
import RobotJobs.Call.Drawing
import RobotJobs.Call.Event
import RobotJobs.Call.Problem
import RobotJobs.Call.Traversal
import RobotJobs.Call.Tree
import RobotJobs.CommandLine.Basic
import RobotJobs.CommandLine.Given
import RobotJobs.CommandLine.Reader
import RobotJobs.Job.Folder
import RobotJobs.Job.Name
import RobotJobs.Job.Reference
import RobotJobs.Main
import RobotJobs.Number.Binary64
import RobotJobs.Path
import RobotJobs.Pattern.Class
import RobotJobs.Pattern.Readable
import RobotJobs.Pattern.Symbol
import RobotJobs.Proofs.Call.Agreement
import RobotJobs.Proofs.Call.Closure
import RobotJobs.Proofs.Call.Columns
import RobotJobs.Proofs.Call.Drawing
import RobotJobs.Proofs.Call.Expansion
import RobotJobs.Proofs.Call.Following
import RobotJobs.Proofs.Call.Insertions
import RobotJobs.Proofs.Call.LetterCase
import RobotJobs.Proofs.Call.Listed
import RobotJobs.Proofs.Call.Nesting
import RobotJobs.Proofs.Call.Nodes
import RobotJobs.Proofs.Call.Positions
import RobotJobs.Proofs.Call.ProblemOrder
import RobotJobs.Proofs.Call.Problems
import RobotJobs.Proofs.Call.Reachable
import RobotJobs.Proofs.Call.Resolution
import RobotJobs.Proofs.Call.Root
import RobotJobs.Proofs.Call.Size
import RobotJobs.Proofs.Call.Tree
import RobotJobs.Proofs.Call.Walks
import RobotJobs.Proofs.Job.Folder
import RobotJobs.Proofs.Job.Grammar
import RobotJobs.Proofs.Job.Lines
import RobotJobs.Proofs.Job.Reference
import RobotJobs.Proofs.Path.Joining
import RobotJobs.Proofs.Path.Shown
import RobotJobs.Proofs.Report.Painting
import RobotJobs.Proofs.Run.Session
import RobotJobs.Proofs.Settings.Files
import RobotJobs.Proofs.Settings.Loaded
import RobotJobs.Proofs.Settings.Overrides
import RobotJobs.Proofs.Settings.Suggestions
import RobotJobs.Proofs.Settings.UnknownKeys
import RobotJobs.Proofs.Storage.Changes
import RobotJobs.Proofs.Storage.History
import RobotJobs.Proofs.Storage.JobFiles
import RobotJobs.Proofs.Storage.Shelf
import RobotJobs.Proofs.Sweep.Again
import RobotJobs.Proofs.Sweep.DryRun
import RobotJobs.Proofs.Sweep.InMemory
import RobotJobs.Proofs.Sweep.Protected
import RobotJobs.Proofs.Sweep.Prune
import RobotJobs.Proofs.Sweep.Swept
import RobotJobs.Proofs.Text.Blank
import RobotJobs.Proofs.Text.EditDistance
import RobotJobs.Proofs.Text.EditRows
import RobotJobs.Proofs.Text.Line
import RobotJobs.Proofs.Text.SingleByte
import RobotJobs.Proofs.Text.Utf8
import RobotJobs.Proofs.Text.Word
import RobotJobs.Proofs.Toml.Assignments
import RobotJobs.Report.Calls
import RobotJobs.Report.Style
import RobotJobs.Report.Sweep
import RobotJobs.Report.Tag
import RobotJobs.Run.Host
import RobotJobs.Run.Log
import RobotJobs.Run.OnDisk
import RobotJobs.Run.Program
import RobotJobs.Run.Session
import RobotJobs.Run.Terminal
import RobotJobs.RunError
import RobotJobs.Settings.Basic
import RobotJobs.Settings.Entries
import RobotJobs.Settings.Environment
import RobotJobs.Settings.Fault
import RobotJobs.Settings.File
import RobotJobs.Settings.Notice
import RobotJobs.Storage.Disk
import RobotJobs.Storage.Fault
import RobotJobs.Storage.Memory
import RobotJobs.Storage.Shelf
import RobotJobs.Storage.Snapshot
import RobotJobs.Storage.View
import RobotJobs.Sweep
import RobotJobs.Text.Alphanumeric
import RobotJobs.Text.Blank
import RobotJobs.Text.EditDistance
import RobotJobs.Text.Ends
import RobotJobs.Text.LetterCase
import RobotJobs.Text.Line
import RobotJobs.Text.Quoted
import RobotJobs.Text.Ranges
import RobotJobs.Text.Search
import RobotJobs.Text.Split
import RobotJobs.Text.Utf8
import RobotJobs.Text.Visible
import RobotJobs.Toml.Document
import RobotJobs.Toml.Moment
import RobotJobs.Toml.Node
import RobotJobs.Toml.Number
import RobotJobs.Toml.Reader
import RobotJobs.Toml.Text
