import Rollout.Api.Adapter
import Rollout.Api.Connection
import Rollout.Api.Feed
import Rollout.Api.Memory
import Rollout.Api.Request
import Rollout.Api.State
import Rollout.Backend
import Rollout.CommandLine.Option
import Rollout.CommandLine.Plan
import Rollout.CommandLine.Run
import Rollout.CommandLine.Usage
import Rollout.Config
import Rollout.Error
import Rollout.Event.Basic
import Rollout.Event.Stream
import Rollout.Fields
import Rollout.History.Resolution
import Rollout.History.View
import Rollout.Json.Basic
import Rollout.Json.Display
import Rollout.Json.Encoding
import Rollout.Json.Equality
import Rollout.Json.Mapping
import Rollout.Json.Parser
import Rollout.Json.Printer
import Rollout.Json.Reread
import Rollout.Json.Shape
import Rollout.Log
import Rollout.Main
import Rollout.Note
import Rollout.Number.Binary64
import Rollout.Number.Integer
import Rollout.Number.Shortest
import Rollout.Patch.Directive
import Rollout.Patch.Document
import Rollout.Patch.Merge
import Rollout.Patch.Order
import Rollout.Patch.Stack
import Rollout.Program
import Rollout.Proofs.Api.Feed
import Rollout.Proofs.Api.Reply
import Rollout.Proofs.Api.Watching
import Rollout.Proofs.CommandLine.Release
import Rollout.Proofs.CommandLine.Resource
import Rollout.Proofs.Fields
import Rollout.Proofs.History.Agreement
import Rollout.Proofs.History.Ownership
import Rollout.Proofs.History.Table
import Rollout.Proofs.Json.Ascii
import Rollout.Proofs.Json.Everywhere
import Rollout.Proofs.Json.Found
import Rollout.Proofs.Json.Numeral
import Rollout.Proofs.Json.Parts
import Rollout.Proofs.Json.Portable
import Rollout.Proofs.Json.Quotation
import Rollout.Proofs.Json.Reading
import Rollout.Proofs.Json.Reordered
import Rollout.Proofs.Json.RoundTrip
import Rollout.Proofs.Json.Sameness
import Rollout.Proofs.Json.Unique
import Rollout.Proofs.Number.Decimal
import Rollout.Proofs.Number.Rounding
import Rollout.Proofs.Outcome
import Rollout.Proofs.Patch.Absorption
import Rollout.Proofs.Patch.Agreement
import Rollout.Proofs.Patch.Arrangement
import Rollout.Proofs.Patch.Deletion
import Rollout.Proofs.Patch.Depth
import Rollout.Proofs.Patch.ElementByElement
import Rollout.Proofs.Patch.Everywhere
import Rollout.Proofs.Patch.Fieldwise
import Rollout.Proofs.Patch.Frame
import Rollout.Proofs.Patch.Idempotence
import Rollout.Proofs.Patch.KeyedList
import Rollout.Proofs.Patch.MergePatch
import Rollout.Proofs.Patch.Misfit
import Rollout.Proofs.Patch.Plain
import Rollout.Proofs.Patch.Projection
import Rollout.Proofs.Patch.StableOrder
import Rollout.Proofs.Patch.Stack
import Rollout.Proofs.Patch.Union
import Rollout.Proofs.Patch.WellFormed
import Rollout.Proofs.Program.Alike
import Rollout.Proofs.Program.Discipline
import Rollout.Proofs.Program.Path
import Rollout.Proofs.Program.Protocol
import Rollout.Proofs.Program.Reading
import Rollout.Proofs.Program.Run
import Rollout.Proofs.Program.Session
import Rollout.Proofs.Revision.ByNumber
import Rollout.Proofs.Revision.Choice
import Rollout.Proofs.Revision.Data
import Rollout.Proofs.Revision.LastListed
import Rollout.Proofs.Revision.Rearrangement
import Rollout.Proofs.Revision.Record
import Rollout.Proofs.Revision.Restoration
import Rollout.Proofs.Revision.Selection
import Rollout.Proofs.Rollback.Concurrency
import Rollout.Proofs.Rollback.Convergence
import Rollout.Proofs.Rollback.FailStop
import Rollout.Proofs.Rollback.Mutation
import Rollout.Proofs.Rollback.Plan
import Rollout.Proofs.Rollback.Preview
import Rollout.Proofs.Rollback.Repeated
import Rollout.Proofs.Rollback.Verdict
import Rollout.Proofs.Rollback.Waiting
import Rollout.Proofs.Selector.Faithful
import Rollout.Proofs.Selector.Grammar
import Rollout.Proofs.Selector.Reading
import Rollout.Proofs.Selector.Validity
import Rollout.Proofs.Template.Refusal
import Rollout.Proofs.Template.Reordering
import Rollout.Proofs.Text.Blocks
import Rollout.Proofs.Text.Columns
import Rollout.Proofs.Text.Folding
import Rollout.Proofs.Text.Pieces
import Rollout.Proofs.Text.Runs
import Rollout.Proofs.Text.SurrogatePair
import Rollout.Proofs.Text.Table
import Rollout.Proofs.Workload.Spelling
import Rollout.Revision.Basic
import Rollout.Revision.Choice
import Rollout.Revision.Reconstruction
import Rollout.Rollback.Basic
import Rollout.Rollback.Ending
import Rollout.Rollback.Watch
import Rollout.Selector.Label
import Rollout.Selector.Query
import Rollout.Template.Container
import Rollout.Template.Description
import Rollout.Template.Part
import Rollout.Template.Volume
import Rollout.Text.Basic
import Rollout.Text.Blank
import Rollout.Text.Cased
import Rollout.Text.DecimalDigit
import Rollout.Text.Lines
import Rollout.Text.LowerCase
import Rollout.Text.Printable
import Rollout.Text.Quoted
import Rollout.Text.Similarity
import Rollout.Text.SurrogatePair
import Rollout.Text.TabStops
import Rollout.Text.Terminal
import Rollout.Text.UpperCase
import Rollout.Workload.Basic
import Rollout.Workload.Kind
import Rollout.Workload.Owner
import Rollout.Workload.Registry
