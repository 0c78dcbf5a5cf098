import PerfDrift.Check.Basic
import PerfDrift.Check.Records
import PerfDrift.Check.Run
import PerfDrift.Collection
import PerfDrift.CommandLine.Arguments
import PerfDrift.CommandLine.Invocation
import PerfDrift.CommandLine.Session
import PerfDrift.CommandLine.Word
import PerfDrift.Config.Basic
import PerfDrift.Config.Resolve
import PerfDrift.Config.Rule
import PerfDrift.Config.Written
import PerfDrift.Detection.Average
import PerfDrift.Detection.Comparison
import PerfDrift.Detection.Growth
import PerfDrift.Detection.Outlier
import PerfDrift.Detection.Quick
import PerfDrift.Detection.Registry
import PerfDrift.Document.Basic
import PerfDrift.Document.Decode
import PerfDrift.Document.Error
import PerfDrift.Failure
import PerfDrift.Files
import PerfDrift.Finding.Basic
import PerfDrift.Finding.Document
import PerfDrift.Finding.Line
import PerfDrift.History
import PerfDrift.Json.Decode
import PerfDrift.Json.Reader
import PerfDrift.Json.Writer
import PerfDrift.KeyMap
import PerfDrift.Main
import PerfDrift.Method.Basic
import PerfDrift.Method.Reading
import PerfDrift.Number.Arithmetic
import PerfDrift.Number.Digits
import PerfDrift.Number.Layout
import PerfDrift.Number.Numeral
import PerfDrift.Profile.Basic
import PerfDrift.Profile.Document
import PerfDrift.Proofs.Check.Commutation
import PerfDrift.Proofs.Check.Expected
import PerfDrift.Proofs.Check.Footprint
import PerfDrift.Proofs.Check.Freshness
import PerfDrift.Proofs.Check.Isolation
import PerfDrift.Proofs.Check.Minor
import PerfDrift.Proofs.Check.Mirror
import PerfDrift.Proofs.Check.Operation
import PerfDrift.Proofs.Check.Perform
import PerfDrift.Proofs.Check.Policy
import PerfDrift.Proofs.Check.Recording
import PerfDrift.Proofs.Check.Refusal
import PerfDrift.Proofs.Check.Repetition
import PerfDrift.Proofs.Check.Replacement
import PerfDrift.Proofs.Check.Requests
import PerfDrift.Proofs.Check.Rules
import PerfDrift.Proofs.Check.Simulation
import PerfDrift.Proofs.Check.Transparency
import PerfDrift.Proofs.CommandLine.Session
import PerfDrift.Proofs.Config.Resolve
import PerfDrift.Proofs.Config.Rewrite
import PerfDrift.Proofs.Config.Rule
import PerfDrift.Proofs.Detection.Balance
import PerfDrift.Proofs.Detection.BestModel
import PerfDrift.Proofs.Detection.Bounds
import PerfDrift.Proofs.Detection.Change
import PerfDrift.Proofs.Detection.Coverage
import PerfDrift.Proofs.Detection.Direction
import PerfDrift.Proofs.Detection.Growth
import PerfDrift.Proofs.Detection.Locality
import PerfDrift.Proofs.Detection.Monotonicity
import PerfDrift.Proofs.Detection.Prefilter
import PerfDrift.Proofs.Detection.Same
import PerfDrift.Proofs.Detection.Selection
import PerfDrift.Proofs.Detection.Sensitivity
import PerfDrift.Proofs.Detection.Survival
import PerfDrift.Proofs.Detection.Uniqueness
import PerfDrift.Proofs.Detection.Unit
import PerfDrift.Proofs.Document.Edit
import PerfDrift.Proofs.Document.Record
import PerfDrift.Proofs.Document.Scalar
import PerfDrift.Proofs.Finding.Document
import PerfDrift.Proofs.History.Lineage
import PerfDrift.Proofs.History.Walk
import PerfDrift.Proofs.Json.Scalar
import PerfDrift.Proofs.Json.Written
import PerfDrift.Proofs.KeyMap
import PerfDrift.Proofs.Method.Reading
import PerfDrift.Proofs.Number.Binary
import PerfDrift.Proofs.Number.Exact
import PerfDrift.Proofs.Number.Root
import PerfDrift.Proofs.Outcome
import PerfDrift.Proofs.Profile.Document
import PerfDrift.Proofs.Profile.Grouping
import PerfDrift.Proofs.Samples.Domination
import PerfDrift.Proofs.Samples.Frame
import PerfDrift.Proofs.Samples.Interpolation
import PerfDrift.Proofs.Samples.Quantile
import PerfDrift.Proofs.StableSort
import PerfDrift.Proofs.Tally
import PerfDrift.Proofs.Text.ByteOrder
import PerfDrift.Proofs.Text.Spelling
import PerfDrift.Proofs.Thresholds
import PerfDrift.Proofs.Toml.Document
import PerfDrift.Proofs.Toml.Lookup
import PerfDrift.Samples
import PerfDrift.Store
import PerfDrift.Summary
import PerfDrift.Text.Blank
import PerfDrift.Text.Hidden
import PerfDrift.Text.Quoted
import PerfDrift.Thresholds
import PerfDrift.Toml.Lexer
import PerfDrift.Toml.Moment
import PerfDrift.Toml.Reader
import PerfDrift.Toml.Tree
import PerfDrift.Toml.Value
import PerfDrift.Verdict
