import Interchange.Cli.Arguments
import Interchange.Cli.Command
import Interchange.Config
import Interchange.Context.Id
import Interchange.Context.Tree
import Interchange.Decimal.Layout
import Interchange.Decimal.Reading
import Interchange.Decimal.Shortest
import Interchange.Double
import Interchange.Engine.Builder
import Interchange.Engine.Evaluation
import Interchange.Engine.Running
import Interchange.Engine.World
import Interchange.Fault
import Interchange.Fields
import Interchange.FileSystem
import Interchange.FileTree
import Interchange.Forms.Datum
import Interchange.Forms.Evaluation
import Interchange.Forms.Reader
import Interchange.Forms.Sexp
import Interchange.Heap
import Interchange.Host.Function
import Interchange.Host.Routine
import Interchange.Host.Thunk
import Interchange.Integer
import Interchange.Json.Basic
import Interchange.Json.Number
import Interchange.Json.Reader
import Interchange.Loader
import Interchange.LogLevel
import Interchange.LogTargets
import Interchange.Main
import Interchange.Native
import Interchange.Probe
import Interchange.Program
import Interchange.Proofs.Cli.Check
import Interchange.Proofs.Config
import Interchange.Proofs.Context.Census
import Interchange.Proofs.Context.Descent
import Interchange.Proofs.Context.Places
import Interchange.Proofs.Context.Trail
import Interchange.Proofs.Engine.Allowance
import Interchange.Proofs.Engine.Alone
import Interchange.Proofs.Engine.Asking
import Interchange.Proofs.Engine.Calls
import Interchange.Proofs.Engine.Changes
import Interchange.Proofs.Engine.Contexts
import Interchange.Proofs.Engine.Course
import Interchange.Proofs.Engine.Depth
import Interchange.Proofs.Engine.Distinct
import Interchange.Proofs.Engine.Faults
import Interchange.Proofs.Engine.Further
import Interchange.Proofs.Engine.Isolation
import Interchange.Proofs.Engine.Journals
import Interchange.Proofs.Engine.Languages
import Interchange.Proofs.Engine.Likeness
import Interchange.Proofs.Engine.Limit
import Interchange.Proofs.Engine.Locals
import Interchange.Proofs.Engine.Moment
import Interchange.Proofs.Engine.Objects
import Interchange.Proofs.Engine.Outside
import Interchange.Proofs.Engine.Quiet
import Interchange.Proofs.Engine.Refusals
import Interchange.Proofs.Engine.Reply
import Interchange.Proofs.Engine.Routines
import Interchange.Proofs.Engine.Seats
import Interchange.Proofs.Engine.Transparency
import Interchange.Proofs.Engine.Units
import Interchange.Proofs.Engine.Unnoticed
import Interchange.Proofs.Fields
import Interchange.Proofs.FileSystem
import Interchange.Proofs.Guests.CallArguments
import Interchange.Proofs.Guests.Commas
import Interchange.Proofs.Guests.Distinct
import Interchange.Proofs.Guests.Evaluation
import Interchange.Proofs.Guests.Guard
import Interchange.Proofs.Guests.HandedOver
import Interchange.Proofs.Guests.Lines
import Interchange.Proofs.Guests.Locals
import Interchange.Proofs.Guests.Names
import Interchange.Proofs.Guests.Passing
import Interchange.Proofs.Guests.PathTexts
import Interchange.Proofs.Guests.Plain
import Interchange.Proofs.Guests.QuotedNames
import Interchange.Proofs.Guests.Records
import Interchange.Proofs.Guests.Rule
import Interchange.Proofs.Guests.Scripts
import Interchange.Proofs.Guests.Session
import Interchange.Proofs.Guests.StatementLines
import Interchange.Proofs.Guests.Sums
import Interchange.Proofs.Host.Distinct
import Interchange.Proofs.Host.Quiet
import Interchange.Proofs.Integer.Exact
import Interchange.Proofs.Integer.Makings
import Interchange.Proofs.Json.Documents
import Interchange.Proofs.Json.Numbers
import Interchange.Proofs.Json.RoundTrip
import Interchange.Proofs.Json.Strings
import Interchange.Proofs.LogTargets
import Interchange.Proofs.Numerals
import Interchange.Proofs.Outcome
import Interchange.Proofs.Registry.Cycles
import Interchange.Proofs.Registry.Exchange
import Interchange.Proofs.Registry.History
import Interchange.Proofs.Registry.Journal
import Interchange.Proofs.Registry.Operations
import Interchange.Proofs.Registry.Runs
import Interchange.Proofs.Registry.Store
import Interchange.Proofs.Report.Attribution
import Interchange.Proofs.Report.Contents
import Interchange.Proofs.Report.Findings
import Interchange.Proofs.Report.Happenings
import Interchange.Proofs.Report.Lines
import Interchange.Proofs.Report.Notes
import Interchange.Proofs.SourcePath.Canonical
import Interchange.Proofs.SourcePath.Joining
import Interchange.Proofs.SourcePath.Location
import Interchange.Proofs.SourcePath.Names
import Interchange.Proofs.Text
import Interchange.Proofs.Value.Appearance
import Interchange.Proofs.Value.Data
import Interchange.Proofs.Value.Equality
import Interchange.Proofs.Value.Items
import Interchange.Proofs.Value.Native
import Interchange.Proofs.Value.Paths
import Interchange.Proofs.Value.Printing
import Interchange.Proofs.Value.Reading
import Interchange.Proofs.Value.Relay
import Interchange.Proofs.Value.Structure
import Interchange.Registry
import Interchange.Report
import Interchange.Session
import Interchange.SourcePath
import Interchange.Statements.Arguments
import Interchange.Statements.Expression
import Interchange.Statements.Item
import Interchange.Statements.Path
import Interchange.Statements.Statement
import Interchange.Text.Blank
import Interchange.Text.Lines
import Interchange.Text.Quoted
import Interchange.Text.Split
import Interchange.Text.Unprintable
import Interchange.Value.Basic
import Interchange.Value.Equal
import Interchange.Value.Written
