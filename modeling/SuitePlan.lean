import SuitePlan.Attempt
import SuitePlan.Catalog.Basic
import SuitePlan.Catalog.Entry
import SuitePlan.Catalog.Fault
import SuitePlan.Catalog.Printer
import SuitePlan.Catalog.Reader
import SuitePlan.CommandLine.Argument
import SuitePlan.CommandLine.Invocation
import SuitePlan.CommandLine.Items
import SuitePlan.CommandLine.Options
import SuitePlan.CommandLine.Outcome
import SuitePlan.CommandLine.Run
import SuitePlan.Composition
import SuitePlan.Failure
import SuitePlan.Files.Basic
import SuitePlan.Files.Tree
import SuitePlan.Journal
import SuitePlan.Json.Diagnostics
import SuitePlan.Json.Draft
import SuitePlan.Json.Number
import SuitePlan.Json.Printer
import SuitePlan.Json.Reader
import SuitePlan.Json.Text
import SuitePlan.Json.Value
import SuitePlan.Main
import SuitePlan.Number.Binary64
import SuitePlan.Number.Shortest
import SuitePlan.Pipeline
import SuitePlan.Profile.Error
import SuitePlan.Profile.Expansion
import SuitePlan.Profile.Lineup
import SuitePlan.Profile.Resolution
import SuitePlan.Profile.Selection
import SuitePlan.Profile.Source
import SuitePlan.Proofs.Catalog.Entries
import SuitePlan.Proofs.Catalog.RoundTrip
import SuitePlan.Proofs.Catalog.Slots
import SuitePlan.Proofs.CommandLine.Items
import SuitePlan.Proofs.CommandLine.Output
import SuitePlan.Proofs.CommandLine.Prediction
import SuitePlan.Proofs.CommandLine.Steps
import SuitePlan.Proofs.CommandLine.Words
import SuitePlan.Proofs.Expansion.Calls
import SuitePlan.Proofs.Expansion.Context
import SuitePlan.Proofs.Expansion.Cycles
import SuitePlan.Proofs.Expansion.Defects
import SuitePlan.Proofs.Expansion.Flattening
import SuitePlan.Proofs.Expansion.Graph
import SuitePlan.Proofs.Expansion.Limit
import SuitePlan.Proofs.Expansion.Locality
import SuitePlan.Proofs.Expansion.Meaning
import SuitePlan.Proofs.Expansion.Nesting
import SuitePlan.Proofs.Expansion.Paths
import SuitePlan.Proofs.Expansion.Rewriting
import SuitePlan.Proofs.Expansion.Steps
import SuitePlan.Proofs.Expansion.Success
import SuitePlan.Proofs.Json.Scalars
import SuitePlan.Proofs.Json.Values
import SuitePlan.Proofs.Pipeline.Commutation
import SuitePlan.Proofs.Pipeline.Conservation
import SuitePlan.Proofs.Pipeline.ListedStages
import SuitePlan.Proofs.Pipeline.Options
import SuitePlan.Proofs.Pipeline.Orders
import SuitePlan.Proofs.Pipeline.Passes
import SuitePlan.Proofs.Pipeline.Payloads
import SuitePlan.Proofs.Pipeline.Rearrangement
import SuitePlan.Proofs.Pipeline.Selection
import SuitePlan.Proofs.Repetition.Layouts
import SuitePlan.Proofs.Replay.FixedPoints
import SuitePlan.Proofs.Replay.Pipelines
import SuitePlan.Proofs.Replay.Seeds
import SuitePlan.Proofs.Replay.Stages
import SuitePlan.Proofs.Resolution.Sources
import SuitePlan.Proofs.Settings.Acceptance
import SuitePlan.Proofs.Settings.Integers
import SuitePlan.Proofs.Settings.Overrides
import SuitePlan.Proofs.Settings.RoundTrip
import SuitePlan.Proofs.Settings.Values
import SuitePlan.Proofs.Shuffle.Bounds
import SuitePlan.Proofs.Shuffle.Orders
import SuitePlan.Proofs.Text.ByteOrder
import SuitePlan.Repetition
import SuitePlan.Settings.Basic
import SuitePlan.Settings.Error
import SuitePlan.Settings.Overrides
import SuitePlan.Settings.Reader
import SuitePlan.Shuffle.Draw
import SuitePlan.Shuffle.Key
import SuitePlan.Shuffle.Keystream
import SuitePlan.Shuffle.Permutation
import SuitePlan.Shuffle.Request
import SuitePlan.Stage.Basic
import SuitePlan.Stage.Kind
import SuitePlan.Stage.Order
import SuitePlan.Stage.Standard
import SuitePlan.Table
import SuitePlan.Text.Blank
import SuitePlan.Text.Combining
import SuitePlan.Text.Decimal
import SuitePlan.Text.Pieces
import SuitePlan.Text.Property
import SuitePlan.Text.Quoted
import SuitePlan.Text.Unprintable
