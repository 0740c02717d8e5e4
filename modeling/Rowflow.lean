import Rowflow.Binary64.Basic
import Rowflow.Binary64.Round
import Rowflow.Binary64.Shortest
import Rowflow.Binary64.Text
import Rowflow.Command
import Rowflow.Engine.Activity
import Rowflow.Engine.Collection
import Rowflow.Engine.Context
import Rowflow.Engine.Diversion
import Rowflow.Engine.Hooks
import Rowflow.Engine.Injection
import Rowflow.Engine.Listener
import Rowflow.Engine.Orchestrator
import Rowflow.Engine.Report
import Rowflow.Engine.Routing
import Rowflow.Engine.Session
import Rowflow.Engine.Shared
import Rowflow.Engine.Topology
import Rowflow.Engine.Worker
import Rowflow.Engine.World
import Rowflow.Json.Basic
import Rowflow.Json.Parse
import Rowflow.Log.Message
import Rowflow.Main
import Rowflow.Pipeline.Definition
import Rowflow.Pipeline.File
import Rowflow.Pipeline.Graph
import Rowflow.Pipeline.Read
import Rowflow.Pipeline.Validation
import Rowflow.Proofs.Context.Usage
import Rowflow.Proofs.Context.Step
import Rowflow.Proofs.Context.Exchange
import Rowflow.Proofs.Context.EndOfInput
import Rowflow.Proofs.Context.RoundRobin
import Rowflow.Proofs.Context.Deliveries
import Rowflow.Proofs.Context.Movement
import Rowflow.Proofs.Context.Counting
import Rowflow.Proofs.Course.Anytime
import Rowflow.Proofs.Course.Attempt
import Rowflow.Proofs.Course.Basic
import Rowflow.Proofs.Course.Calls
import Rowflow.Proofs.Course.CleanEnd
import Rowflow.Proofs.Course.Crew
import Rowflow.Proofs.Course.Custody
import Rowflow.Proofs.Course.Doing
import Rowflow.Proofs.Course.Deed
import Rowflow.Proofs.Course.Episodes
import Rowflow.Proofs.Course.Grounds
import Rowflow.Proofs.Course.History
import Rowflow.Proofs.Course.HookOrder
import Rowflow.Proofs.Course.Launch
import Rowflow.Proofs.Course.Lifecycle
import Rowflow.Proofs.Course.Operations
import Rowflow.Proofs.Course.Preparation
import Rowflow.Proofs.Course.Readiness
import Rowflow.Proofs.Course.Reports
import Rowflow.Proofs.Course.ResultOrder
import Rowflow.Proofs.Course.RowSets
import Rowflow.Proofs.Course.Step
import Rowflow.Proofs.Course.Turns
import Rowflow.Proofs.Course.Waiting
import Rowflow.Proofs.Dataflow.Account
import Rowflow.Proofs.Dataflow.Alignment
import Rowflow.Proofs.Dataflow.Blockage
import Rowflow.Proofs.Dataflow.Books
import Rowflow.Proofs.Dataflow.Emission
import Rowflow.Proofs.Dataflow.Inflow
import Rowflow.Proofs.Dataflow.Order
import Rowflow.Proofs.Dataflow.PerRow
import Rowflow.Proofs.Dataflow.Progress
import Rowflow.Proofs.Dataflow.Typing
import Rowflow.Proofs.Diversion.Ceiling
import Rowflow.Proofs.Diversion.Handling
import Rowflow.Proofs.Diversion.Headcount
import Rowflow.Proofs.Diversion.Naming
import Rowflow.Proofs.Diversion.Outcome
import Rowflow.Proofs.Diversion.Recall
import Rowflow.Proofs.Diversion.Routing
import Rowflow.Proofs.Diversion.Tally
import Rowflow.Proofs.Pipeline.Acyclicity
import Rowflow.Proofs.Pipeline.Allocation
import Rowflow.Proofs.Pipeline.Completeness
import Rowflow.Proofs.Pipeline.Connections
import Rowflow.Proofs.Pipeline.Evaluation
import Rowflow.Proofs.Pipeline.Roster
import Rowflow.Proofs.Pipeline.TopologicalOrder
import Rowflow.Proofs.Pipeline.WellFormed
import Rowflow.Proofs.Pipeline.Wiring
import Rowflow.Proofs.Row.Conformance
import Rowflow.Proofs.RowSet.Clients
import Rowflow.Proofs.RowSet.Queue
import Rowflow.Proofs.RowSet.Timeline
import Rowflow.Proofs.Transform.BuiltinConduct
import Rowflow.Proofs.Transform.Conduct
import Rowflow.Proofs.Transform.Offers
import Rowflow.Proofs.Transform.Resolution
import Rowflow.Proofs.Transform.Typing
import Rowflow.Reading.Data
import Rowflow.Reading.Document
import Rowflow.Reading.Fault
import Rowflow.Reading.Source
import Rowflow.Reading.Toml
import Rowflow.Row.Basic
import Rowflow.Row.Json
import Rowflow.Row.Layout
import Rowflow.Row.Value
import Rowflow.RowSet.Basic
import Rowflow.RowSet.Pump
import Rowflow.RowSet.Timeline
import Rowflow.Table
import Rowflow.Text.Blank
import Rowflow.Text.Duration
import Rowflow.Text.Hexadecimal
import Rowflow.Text.Numeral
import Rowflow.Text.Quoted
import Rowflow.Text.Unprintable
import Rowflow.Toml.Basic
import Rowflow.Toml.Document
import Rowflow.Toml.Draft
import Rowflow.Toml.Number
import Rowflow.Toml.Text
import Rowflow.Transform.Arithmetic
import Rowflow.Transform.Builtin
import Rowflow.Transform.Error
import Rowflow.Transform.FieldPlace
import Rowflow.Transform.Flow
import Rowflow.Transform.GenerateRows
import Rowflow.Transform.Options
import Rowflow.Transform.Plan
import Rowflow.Transform.Registry
import Rowflow.Transform.Scripted
import Rowflow.Yaml.Basic
import Rowflow.Yaml.Document
import Rowflow.Yaml.Node
import Rowflow.Yaml.Scalar
import Rowflow.Yaml.Syntax.Character
import Rowflow.Yaml.Syntax.ScalarText
import Rowflow.Yaml.Syntax.Token
import Rowflow.Yaml.Syntax.Tokens
import Rowflow.Proofs.Pipeline.ReportedCycle
import Rowflow.Proofs.Pipeline.Taking
import Rowflow.Proofs.Course.Arrangement
import Rowflow.Proofs.Diversion.FailingRow
import Rowflow.Proofs.Course.Closing
import Rowflow.Proofs.Course.Cancellation
import Rowflow.Proofs.Diversion.Failures
import Rowflow.Proofs.Transform.Rewriting
import Rowflow.Proofs.Pipeline.Pruning
import Rowflow.Proofs.Text.Numeral
import Rowflow.Proofs.Transform.Generation
import Rowflow.Proofs.Transform.Filtering
import Rowflow.Proofs.Dataflow.Partition
import Rowflow.Proofs.Table
import Rowflow.Proofs.Row.Names
import Rowflow.Proofs.Row.Encoding
import Rowflow.Proofs.Pipeline.Neighbours
import Rowflow.Proofs.Json.Tokens
import Rowflow.Proofs.Json.ReadBack
import Rowflow.Proofs.Course.Departure
