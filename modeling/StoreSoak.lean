import StoreSoak.Clock
import StoreSoak.CommandLine.Arguments
import StoreSoak.CommandLine.Parser
import StoreSoak.Config
import StoreSoak.Draw.Generator
import StoreSoak.Draw.Odds
import StoreSoak.Duration
import StoreSoak.Duration.Text
import StoreSoak.IoFault
import StoreSoak.Json
import StoreSoak.Json.Decode
import StoreSoak.Json.Parser
import StoreSoak.Json.Printer
import StoreSoak.Main
import StoreSoak.Measure.Sample
import StoreSoak.Measure.Tally
import StoreSoak.Notice
import StoreSoak.Notice.Log
import StoreSoak.Pool
import StoreSoak.Pressure
import StoreSoak.Program
import StoreSoak.Ratio
import StoreSoak.Ratio.Layout
import StoreSoak.Ratio.Shortest
import StoreSoak.Rehearsal
import StoreSoak.Remote.Client
import StoreSoak.Remote.Endpoint
import StoreSoak.Remote.Failure
import StoreSoak.Remote.Path
import StoreSoak.Remote.Script
import StoreSoak.Remote.Scripted
import StoreSoak.Remote.Url
import StoreSoak.Remote.Value
import StoreSoak.Report
import StoreSoak.Report.Document
import StoreSoak.Report.Text
import StoreSoak.Run
import StoreSoak.Run.Error
import StoreSoak.Run.Record
import StoreSoak.Signals
import StoreSoak.Signals.Handshake
import StoreSoak.Store.Connection
import StoreSoak.Store.Basic
import StoreSoak.Store.Flags
import StoreSoak.Store.Memory
import StoreSoak.Store.Session
import StoreSoak.Store.Table
import StoreSoak.Store.Transaction
import StoreSoak.Text.Basic
import StoreSoak.Text.Quoted
import StoreSoak.Text.Sha1
import StoreSoak.Text.Utf8
import StoreSoak.Worker
import StoreSoak.Worker.Error
import StoreSoak.Proofs.Pool.Steps
import StoreSoak.Proofs.Store.Log
import StoreSoak.Proofs.Pool.Trace
import StoreSoak.Proofs.Run.Steps
import StoreSoak.Proofs.Run.Closing
import StoreSoak.Proofs.Measure.Totals
import StoreSoak.Proofs.Worker.Moves
import StoreSoak.Proofs.Pool.Progress
import StoreSoak.Proofs.Run.Progress
import StoreSoak.Proofs.Store.Shared
import StoreSoak.Proofs.Pool.Calm
import StoreSoak.Proofs.Pool.Accounts
import StoreSoak.Proofs.Run.Forecast
import StoreSoak.Proofs.Lua.Program
import StoreSoak.Proofs.Text.Utf8
import StoreSoak.Proofs.Lua.Reader
import StoreSoak.Proofs.Remote.Server
import StoreSoak.Proofs.Remote.Script
import StoreSoak.Proofs.Remote.Agreement
import StoreSoak.Proofs.Measure.Tallying
import StoreSoak.Proofs.Worker.Draws
import StoreSoak.Proofs.Pool.Choices
import StoreSoak.Proofs.Store.Journal
import StoreSoak.Proofs.Worker.Outcome
import StoreSoak.Proofs.Pool.Causes
import StoreSoak.Proofs.Run.Shutdown
import StoreSoak.Proofs.Pool.Reports
import StoreSoak.Proofs.Run.Order
import StoreSoak.Proofs.Pool.Unopposed
import StoreSoak.Proofs.Run.Unopposed
import StoreSoak.Proofs.Run.Clock
import StoreSoak.Proofs.CommandLine.Range
import StoreSoak.Proofs.Program.Runs
import StoreSoak.Proofs.Program.Guard
import StoreSoak.Proofs.Report.Classes
import StoreSoak.Proofs.Pool.Attribution
import StoreSoak.Proofs.Pressure.Chains
import StoreSoak.Proofs.Run.VirtualClock
import StoreSoak.Proofs.Worker.Pace
import StoreSoak.Proofs.Run.ClosedForm
import StoreSoak.Proofs.Signals.Calls
import StoreSoak.Proofs.Run.Verdict
import StoreSoak.Proofs.Json.Grammar
import StoreSoak.Proofs.Json.Tokens
import StoreSoak.Proofs.Json.Reading
import StoreSoak.Proofs.Json.Writing
import StoreSoak.Proofs.Json.Records
import StoreSoak.Proofs.Measure.RoundTrip
import StoreSoak.Proofs.Report.Document
import StoreSoak.Proofs.Run.Printed
import StoreSoak.Proofs.Program.Output
import StoreSoak.Proofs.Draw.Fairness
import StoreSoak.Proofs.Pool.Leftover
import StoreSoak.Proofs.Report.RoundTrip
import StoreSoak.Proofs.Text.Digits
import StoreSoak.Proofs.Text.Quoted
import StoreSoak.Proofs.Duration.Text
import StoreSoak.Proofs.Report.Lines
import StoreSoak.Proofs.Text.Numeral
import StoreSoak.Proofs.Worker.Wording
import StoreSoak.Proofs.Report.Averages
import StoreSoak.Proofs.CommandLine.Words
import StoreSoak.Proofs.CommandLine.Choices
import StoreSoak.Proofs.Remote.Address
import StoreSoak.Proofs.Remote.Selection
import StoreSoak.Proofs.Signals.Handshake
import StoreSoak.Proofs.Run.Document
