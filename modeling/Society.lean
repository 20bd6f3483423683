import Society.CommandLine.Arguments
import Society.CommandLine.Invocation
import Society.CommandLine.Program
import Society.Config.Basic
import Society.Config.Reader
import Society.Config.Uuid
import Society.Config.Writer
import Society.Decimal.Binary
import Society.Decimal.Fixed
import Society.Decimal.Reader
import Society.Decimal.Shortest
import Society.Decimal.Significant
import Society.Dict
import Society.Dict.Lemmas
import Society.Document.Basic
import Society.Document.Json.Number
import Society.Document.Json.Printer
import Society.Document.Json.Reader
import Society.Document.Toml.Reader
import Society.Document.Toml.Scalar
import Society.Document.Toml.Table
import Society.Document.Toml.Text
import Society.Entity
import Society.Error
import Society.Event
import Society.Fact.Database
import Society.Fact.Error
import Society.Fact.Forest
import Society.Main
import Society.Node.Exchange
import Society.Node.Order
import Society.Node.Value
import Society.Proofs.Decimal.Conversion
import Society.Proofs.Decimal.Double
import Society.Proofs.Decimal.Reading
import Society.Proofs.Decimal.Rounding
import Society.Proofs.Decimal.Text
import Society.Proofs.Fact.Build
import Society.Proofs.Fact.Listing
import Society.Proofs.Fact.Map
import Society.Proofs.Fact.Opening
import Society.Proofs.Fact.Refinement
import Society.Proofs.Fact.Reload
import Society.Proofs.Fact.Report
import Society.Proofs.Fact.Run
import Society.Proofs.Fact.Sound
import Society.Proofs.Fact.Tree
import Society.Proofs.Node.Coherence
import Society.Proofs.Query.Assertion
import Society.Proofs.Query.Candidate
import Society.Proofs.Query.Chain
import Society.Proofs.Query.Closed
import Society.Proofs.Query.Comparison
import Society.Proofs.Query.Conjunction
import Society.Proofs.Query.Constant
import Society.Proofs.Query.Distinct
import Society.Proofs.Query.Enumeration
import Society.Proofs.Query.Front
import Society.Proofs.Query.Independence
import Society.Proofs.Query.Negation
import Society.Proofs.Query.Parts
import Society.Proofs.Query.Recall
import Society.Proofs.Query.Row
import Society.Proofs.Query.Soundness
import Society.Proofs.Query.Trail
import Society.Proofs.Sentence.Append
import Society.Proofs.Sentence.Composition
import Society.Proofs.Sentence.Equality
import Society.Proofs.Sentence.RoundTrip
import Society.Proofs.Sentence.Substitution
import Society.Proofs.Sentence.Token
import Society.Proofs.Sheet.Balance
import Society.Proofs.Sheet.Modifiers
import Society.Proofs.Sheet.Renewal
import Society.Proofs.Sheet.Reversal
import Society.Proofs.Stat.Exact
import Society.Proofs.Stat.Groups
import Society.Proofs.Stat.Log
import Society.Proofs.Stat.Order
import Society.Proofs.Text.Filling
import Society.Proofs.Text.Integer
import Society.Proofs.World.Act
import Society.Proofs.World.Bereft
import Society.Proofs.World.Casting
import Society.Proofs.World.Countdown
import Society.Proofs.World.Departure
import Society.Proofs.World.Entries
import Society.Proofs.World.Evaluation
import Society.Proofs.World.Failure
import Society.Proofs.World.Frame
import Society.Proofs.World.Fresh
import Society.Proofs.World.Harmony
import Society.Proofs.World.Holding
import Society.Proofs.World.Influence
import Society.Proofs.World.Invariant
import Society.Proofs.World.Lasting
import Society.Proofs.World.Ledger
import Society.Proofs.World.Local
import Society.Proofs.World.Measured
import Society.Proofs.World.Mirror
import Society.Proofs.World.Operation
import Society.Proofs.World.Outline
import Society.Proofs.World.Page
import Society.Proofs.World.Presence
import Society.Proofs.World.Reach
import Society.Proofs.World.Readable
import Society.Proofs.World.Registry
import Society.Proofs.World.Renewal
import Society.Proofs.World.Reversal
import Society.Proofs.World.Shown
import Society.Proofs.World.Sight
import Society.Proofs.World.Steady
import Society.Proofs.World.Step
import Society.Proofs.World.Tidy
import Society.Proofs.World.Timed
import Society.Proofs.World.Typed
import Society.Proofs.World.Upheld
import Society.Proofs.World.Whole
import Society.Query
import Society.Query.Clause
import Society.Query.Evaluate
import Society.Query.Unify
import Society.Sentence
import Society.Sheet
import Society.Snapshot
import Society.Stat.Basic
import Society.Stat.Formula
import Society.Stat.Modifier
import Society.Text.Blank
import Society.Text.Fill
import Society.Text.Integer
import Society.Text.LowerCase
import Society.Text.LowerCase.Table
import Society.Timer
import Society.Trait
import Society.World.Basic
import Society.World.Command
import Society.World.Effects
import Society.World.Evaluation
import Society.World.Library
import Society.World.Population
import Society.World.Time
import Society.World.Traits
