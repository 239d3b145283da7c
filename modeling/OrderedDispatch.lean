import OrderedDispatch.Command.ExitStatus
import OrderedDispatch.Command.Flag
import OrderedDispatch.Command.Items
import OrderedDispatch.Command.Program
import OrderedDispatch.Command.Quote
import OrderedDispatch.Command.Runner
import OrderedDispatch.Command.Template
import OrderedDispatch.CommandLine.Execution
import OrderedDispatch.CommandLine.Filter
import OrderedDispatch.CommandLine.Invocation
import OrderedDispatch.CommandLine.Option
import OrderedDispatch.CommandLine.Provision
import OrderedDispatch.Config.Complaint
import OrderedDispatch.Config.Doc
import OrderedDispatch.Config.Environment
import OrderedDispatch.Config.Extract
import OrderedDispatch.Config.Files
import OrderedDispatch.Config.Json
import OrderedDispatch.Config.Load
import OrderedDispatch.Config.Reader
import OrderedDispatch.Config.Render
import OrderedDispatch.Config.Toml.Document
import OrderedDispatch.Config.Toml.Moment
import OrderedDispatch.Config.Toml.Table
import OrderedDispatch.Config.Toml.Text
import OrderedDispatch.Config.Toml.Value
import OrderedDispatch.Config.Tree
import OrderedDispatch.Config.Yaml.Cursor
import OrderedDispatch.Config.Yaml.Document
import OrderedDispatch.Config.Yaml.Nesting
import OrderedDispatch.Config.Yaml.Node
import OrderedDispatch.Config.Yaml.Scalar
import OrderedDispatch.Config.Yaml.Text
import OrderedDispatch.Dispatch.Basic
import OrderedDispatch.Dispatch.Launch
import OrderedDispatch.Dispatch.Report
import OrderedDispatch.Dispatch.Schedule
import OrderedDispatch.Dispatch.Work
import OrderedDispatch.Event
import OrderedDispatch.Fault
import OrderedDispatch.Gate.Basic
import OrderedDispatch.Gate.Rehearsal
import OrderedDispatch.Gate.Room
import OrderedDispatch.Main
import OrderedDispatch.Number.Binary64
import OrderedDispatch.Number.Shortest
import OrderedDispatch.Proofs.Command.Items
import OrderedDispatch.Proofs.Command.Placement
import OrderedDispatch.Proofs.Command.Rendering
import OrderedDispatch.Proofs.Command.Tokens
import OrderedDispatch.Proofs.Command.Words
import OrderedDispatch.Proofs.CommandLine.Accepted
import OrderedDispatch.Proofs.CommandLine.RunLine
import OrderedDispatch.Proofs.CommandLine.Spelling
import OrderedDispatch.Proofs.CommandLine.Verbosity
import OrderedDispatch.Proofs.Config.Flags
import OrderedDispatch.Proofs.Config.Isolation
import OrderedDispatch.Proofs.Config.Merge
import OrderedDispatch.Proofs.Config.Override
import OrderedDispatch.Proofs.Config.Precedence
import OrderedDispatch.Proofs.Config.Refusal
import OrderedDispatch.Proofs.Config.Shown.Basic
import OrderedDispatch.Proofs.Config.Shown.Json
import OrderedDispatch.Proofs.Config.Shown.Load
import OrderedDispatch.Proofs.Config.Shown.Toml
import OrderedDispatch.Proofs.Config.Shown.TomlText
import OrderedDispatch.Proofs.Config.Spelling
import OrderedDispatch.Proofs.Config.Variables
import OrderedDispatch.Proofs.Count
import OrderedDispatch.Proofs.Dispatch.Account
import OrderedDispatch.Proofs.Dispatch.Blame
import OrderedDispatch.Proofs.Dispatch.Change
import OrderedDispatch.Proofs.Dispatch.Closing
import OrderedDispatch.Proofs.Dispatch.Deaths
import OrderedDispatch.Proofs.Dispatch.Follows
import OrderedDispatch.Proofs.Dispatch.History
import OrderedDispatch.Proofs.Dispatch.Launch
import OrderedDispatch.Proofs.Dispatch.Line
import OrderedDispatch.Proofs.Dispatch.Paired
import OrderedDispatch.Proofs.Dispatch.Parcel
import OrderedDispatch.Proofs.Dispatch.Progress
import OrderedDispatch.Proofs.Dispatch.Reachable
import OrderedDispatch.Proofs.Dispatch.Rest
import OrderedDispatch.Proofs.Dispatch.Sequential
import OrderedDispatch.Proofs.Dispatch.Trouble
import OrderedDispatch.Proofs.Dispatch.Verdict
import OrderedDispatch.Proofs.Dispatch.Waits
import OrderedDispatch.Proofs.Dispatch.Window
import OrderedDispatch.Proofs.Gate.Change
import OrderedDispatch.Proofs.Gate.Delivery
import OrderedDispatch.Proofs.Gate.Line
import OrderedDispatch.Proofs.Gate.Poison
import OrderedDispatch.Proofs.Gate.Sequence
import OrderedDispatch.Proofs.Session.Lives
import OrderedDispatch.Proofs.Session.Timeline
import OrderedDispatch.Proofs.Sink.Delivery
import OrderedDispatch.Proofs.Sink.Series
import OrderedDispatch.Proofs.Sizing
import OrderedDispatch.Proofs.TakeCursor
import OrderedDispatch.Proofs.Text.Numeral
import OrderedDispatch.Proofs.Text.Replace
import OrderedDispatch.Proofs.Text.Utf8
import OrderedDispatch.Session.Basic
import OrderedDispatch.Session.Slot
import OrderedDispatch.Shell.Arithmetic
import OrderedDispatch.Shell.Builtin
import OrderedDispatch.Shell.Condition
import OrderedDispatch.Shell.Evaluate
import OrderedDispatch.Shell.Expansion
import OrderedDispatch.Shell.Format
import OrderedDispatch.Shell.Glob
import OrderedDispatch.Shell.Node
import OrderedDispatch.Shell.Octets
import OrderedDispatch.Shell.Reader
import OrderedDispatch.Shell.State
import OrderedDispatch.Shell.Utility
import OrderedDispatch.Sink.Basic
import OrderedDispatch.Sink.Collector
import OrderedDispatch.Sink.Scripted
import OrderedDispatch.Sizing
import OrderedDispatch.TakeCursor
import OrderedDispatch.Text.Blank
import OrderedDispatch.Text.Numeral
import OrderedDispatch.Text.Pattern
import OrderedDispatch.Text.Printable
import OrderedDispatch.Text.Quoted
import OrderedDispatch.Text.Utf8
