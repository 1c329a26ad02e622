import LocalIpc.Address.Path
import LocalIpc.Address.PipeName
import LocalIpc.Address.Record
import LocalIpc.Command.ExitStatus
import LocalIpc.Command.Shutdown
import LocalIpc.CommandLine.Basic
import LocalIpc.CommandLine.Invocation
import LocalIpc.CommandLine.Reading
import LocalIpc.CommandLine.Spelling
import LocalIpc.CommandLine.Value
import LocalIpc.Config
import LocalIpc.Connection.Basic
import LocalIpc.Connection.Exchange
import LocalIpc.Connection.Stream
import LocalIpc.Handle
import LocalIpc.Host.Basic
import LocalIpc.Host.Change
import LocalIpc.Host.Files
import LocalIpc.Host.Tree
import LocalIpc.Host.Walk
import LocalIpc.IoError.Basic
import LocalIpc.IoError.Kind
import LocalIpc.IoError.SystemError
import LocalIpc.ListenerError
import LocalIpc.Log.Level
import LocalIpc.Log.Record
import LocalIpc.Main
import LocalIpc.Output.Event
import LocalIpc.Output.Format
import LocalIpc.Pipe.Listener
import LocalIpc.Pipe.Native
import LocalIpc.Pipe.Registry
import LocalIpc.Pipe.Scenario
import LocalIpc.Pipe.State
import LocalIpc.Program.Basic
import LocalIpc.Program.BuildInfo
import LocalIpc.Program.Console
import LocalIpc.Program.Echoing
import LocalIpc.Program.Reporting
import LocalIpc.Program.Site
import LocalIpc.Program.Visits
import LocalIpc.Session.Copy
import LocalIpc.Session.Duty
import LocalIpc.Session.Loop
import LocalIpc.Session.Preview
import LocalIpc.Session.Reception
import LocalIpc.Session.Round
import LocalIpc.Session.Scenario
import LocalIpc.Text.Columns
import LocalIpc.Text.Columns.Following
import LocalIpc.Text.Columns.Pictures
import LocalIpc.Text.Columns.Scripts
import LocalIpc.Text.Columns.Single
import LocalIpc.Text.Hidden
import LocalIpc.Text.Json
import LocalIpc.Text.Json.Value
import LocalIpc.Text.Quoted
import LocalIpc.Text.Ranges
import LocalIpc.Text.Split
import LocalIpc.Text.Table
import LocalIpc.Text.Utf8
import LocalIpc.Unix.Layer
import LocalIpc.Unix.Listener
import LocalIpc.Unix.Native
import LocalIpc.Unix.Scenario
import LocalIpc.Unix.SocketFile
import LocalIpc.Unix.State
import LocalIpc.Proofs.History
import LocalIpc.Proofs.Pipe.Turn
import LocalIpc.Proofs.Pipe.Order
import LocalIpc.Proofs.Pipe.Accounting
import LocalIpc.Proofs.Pipe.Accepting
import LocalIpc.Proofs.Pipe.Calling
import LocalIpc.Proofs.Pipe.Misuse
import LocalIpc.Proofs.Unix.Move
import LocalIpc.Proofs.Unix.Step
import LocalIpc.Proofs.Unix.Accounting
import LocalIpc.Proofs.Unix.Lifetime
import LocalIpc.Proofs.Unix.Closing
import LocalIpc.Proofs.Unix.Lifecycle
import LocalIpc.Proofs.Unix.Accepting
import LocalIpc.Proofs.Host.Files
import LocalIpc.Proofs.Unix.Turn
import LocalIpc.Proofs.Unix.Misuse
import LocalIpc.Proofs.Unix.SocketFile
import LocalIpc.Proofs.Unix.Recorded
import LocalIpc.Proofs.Unix.Altering
import LocalIpc.Proofs.Unix.Alone
import LocalIpc.Proofs.Unix.Removing
import LocalIpc.Proofs.Unix.Taking
import LocalIpc.Proofs.Session.Stopping
import LocalIpc.Proofs.Session.Serving
import LocalIpc.Proofs.Pipe.Conservation
import LocalIpc.Proofs.Session.Duty
import LocalIpc.Proofs.Unix.Ledger
import LocalIpc.Proofs.Unix.Ending
import LocalIpc.Proofs.Unix.Noting
import LocalIpc.Proofs.Unix.Locked
import LocalIpc.Proofs.Unix.Binding
import LocalIpc.Proofs.Pipe.Ending
import LocalIpc.Proofs.Session.Interrupting
import LocalIpc.Proofs.Address.Record
import LocalIpc.Proofs.Program.Closing
import LocalIpc.Proofs.Pipe.Bookkeeping
import LocalIpc.Proofs.Pipe.Reconciling
import LocalIpc.Proofs.Pipe.Standing
import LocalIpc.Proofs.Pipe.Releasing
import LocalIpc.Proofs.Text.Utf8
import LocalIpc.Proofs.Session.Receiving
import LocalIpc.Proofs.Program.Reporting
import LocalIpc.Proofs.Pipe.Clearing
import LocalIpc.Proofs.Pipe.GivingBack
import LocalIpc.Proofs.Program.Splitting
import LocalIpc.Proofs.Program.Counting
import LocalIpc.Proofs.Session.Copying
import LocalIpc.Proofs.Program.Echoing
import LocalIpc.Proofs.Connection.Usage
import LocalIpc.Proofs.Text.Split
import LocalIpc.Proofs.Address.PipeName
import LocalIpc.Proofs.Text.Json
import LocalIpc.Proofs.Output.Event
import LocalIpc.Proofs.Output.Lines
import LocalIpc.Proofs.Program.Lines
import LocalIpc.Unix.Happening
import LocalIpc.Proofs.Host.Queue
import LocalIpc.Proofs.Host.Silence
import LocalIpc.Proofs.Unix.Arrivals
import LocalIpc.Proofs.Unix.Attendance
import LocalIpc.Program.Gathering
import LocalIpc.Proofs.Unix.Waiting
import LocalIpc.Proofs.Unix.Holding
import LocalIpc.Proofs.Unix.Newborn
import LocalIpc.Proofs.Program.Gathering
import LocalIpc.Proofs.Program.Attending
import LocalIpc.Proofs.CommandLine.Word
import LocalIpc.Proofs.CommandLine.Setting
import LocalIpc.Proofs.CommandLine.Parser
import LocalIpc.Proofs.CommandLine.Step
import LocalIpc.Proofs.CommandLine.Level
import LocalIpc.Proofs.CommandLine.Line
import LocalIpc.Proofs.CommandLine.Moving
