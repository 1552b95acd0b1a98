import SchemaForm.Command.Arguments
import SchemaForm.Command.Perform
import SchemaForm.Command.Selection
import SchemaForm.Decimal.Binary64
import SchemaForm.Decimal.Notation
import SchemaForm.Decimal.Shortest
import SchemaForm.Document
import SchemaForm.Entries
import SchemaForm.Field.Combinator
import SchemaForm.Field.Constraints
import SchemaForm.Field.Node
import SchemaForm.Field.Type
import SchemaForm.Json.Basic
import SchemaForm.Json.Literal
import SchemaForm.Json.Number
import SchemaForm.Json.Parser
import SchemaForm.Json.Printer
import SchemaForm.Json.Size
import SchemaForm.Json.Update
import SchemaForm.Main
import SchemaForm.Pipeline.Cache
import SchemaForm.Pipeline.Conditional
import SchemaForm.Pipeline.Context
import SchemaForm.Pipeline.Defaults
import SchemaForm.Pipeline.Dependent
import SchemaForm.Pipeline.Intercept
import SchemaForm.Pipeline.Model
import SchemaForm.Pipeline.Run
import SchemaForm.Pipeline.Selection
import SchemaForm.Pipeline.Stage
import SchemaForm.Pipeline.Tree
import SchemaForm.Pointer
import SchemaForm.Proofs.Decimal.Binary64
import SchemaForm.Proofs.Decimal.Notation
import SchemaForm.Proofs.Decimal.Rounding
import SchemaForm.Proofs.Decimal.Shortest
import SchemaForm.Proofs.Entries
import SchemaForm.Proofs.Json.Congruent
import SchemaForm.Proofs.Json.Document
import SchemaForm.Proofs.Json.Equality
import SchemaForm.Proofs.Json.Integers
import SchemaForm.Proofs.Json.KeysUnique
import SchemaForm.Proofs.Json.Lens
import SchemaForm.Proofs.Json.Removal
import SchemaForm.Proofs.Json.Text
import SchemaForm.Proofs.Json.Update
import SchemaForm.Proofs.Json.Write
import SchemaForm.Proofs.Pipeline.Branch
import SchemaForm.Proofs.Pipeline.Cache
import SchemaForm.Proofs.Pipeline.Chain
import SchemaForm.Proofs.Pipeline.Closed
import SchemaForm.Proofs.Pipeline.Combinator
import SchemaForm.Proofs.Pipeline.Conditional
import SchemaForm.Proofs.Pipeline.Conditional.Interference
import SchemaForm.Proofs.Pipeline.Conditional.Stability
import SchemaForm.Proofs.Pipeline.Defaults
import SchemaForm.Proofs.Pipeline.Enrichment
import SchemaForm.Proofs.Pipeline.Inert
import SchemaForm.Proofs.Pipeline.KeysUnique
import SchemaForm.Proofs.Pipeline.Leftover
import SchemaForm.Proofs.Pipeline.Listing
import SchemaForm.Proofs.Pipeline.MemberOrder
import SchemaForm.Proofs.Pipeline.Nesting
import SchemaForm.Proofs.Pipeline.Offer
import SchemaForm.Proofs.Pipeline.Pinning
import SchemaForm.Proofs.Pipeline.Plain
import SchemaForm.Proofs.Pipeline.Present
import SchemaForm.Proofs.Pipeline.Rebuild
import SchemaForm.Proofs.Pipeline.Rendering
import SchemaForm.Proofs.Pipeline.Requirement
import SchemaForm.Proofs.Pipeline.Seeding
import SchemaForm.Proofs.Pipeline.Selection
import SchemaForm.Proofs.Pipeline.Situated
import SchemaForm.Proofs.Pipeline.Split
import SchemaForm.Proofs.Pipeline.Termination
import SchemaForm.Proofs.Pipeline.Tree
import SchemaForm.Proofs.Pipeline.Value
import SchemaForm.Proofs.Pipeline.Walk
import SchemaForm.Proofs.Pointer
import SchemaForm.Proofs.Pointer.RoundTrip
import SchemaForm.Proofs.Pointer.Verbatim
import SchemaForm.Proofs.Recursion
import SchemaForm.Proofs.SameMembers
import SchemaForm.Proofs.Schema.Address
import SchemaForm.Proofs.Schema.Flatten
import SchemaForm.Proofs.Schema.Identifier
import SchemaForm.Proofs.Schema.KeyOrder
import SchemaForm.Proofs.Schema.KeyOrder.Location
import SchemaForm.Proofs.Schema.KeyOrder.Match
import SchemaForm.Proofs.Schema.KeyOrder.Merge
import SchemaForm.Proofs.Schema.KeyOrder.Normalize
import SchemaForm.Proofs.Schema.KeyOrder.Reference
import SchemaForm.Proofs.Schema.KeysUnique
import SchemaForm.Proofs.Schema.Location
import SchemaForm.Proofs.Schema.Match
import SchemaForm.Proofs.Schema.Merge
import SchemaForm.Proofs.Schema.Narrowing
import SchemaForm.Proofs.Schema.NormalMatch
import SchemaForm.Proofs.Schema.Normalize
import SchemaForm.Proofs.Schema.Overlap
import SchemaForm.Proofs.Schema.Prepare
import SchemaForm.Proofs.Schema.Reference
import SchemaForm.Proofs.SortedMap
import SchemaForm.Proofs.Store.Addresses
import SchemaForm.Proofs.Store.Caching
import SchemaForm.Proofs.Store.Choice
import SchemaForm.Proofs.Store.Climb
import SchemaForm.Proofs.Store.Dirty
import SchemaForm.Proofs.Store.Edit
import SchemaForm.Proofs.Store.Items
import SchemaForm.Proofs.Store.Listening
import SchemaForm.Proofs.Store.Notification
import SchemaForm.Proofs.Store.Plain
import SchemaForm.Proofs.Store.Refusal
import SchemaForm.Proofs.Store.Registry
import SchemaForm.Proofs.Store.Spelling
import SchemaForm.Proofs.Validation.Annotate
import SchemaForm.Proofs.Validation.Cache
import SchemaForm.Proofs.Value.Coerce
import SchemaForm.Proofs.Value.ReadBack
import SchemaForm.Regex.Basic
import SchemaForm.Regex.Engine
import SchemaForm.Regex.Parser
import SchemaForm.Regex.Token
import SchemaForm.Schema.Location
import SchemaForm.Schema.Match
import SchemaForm.Schema.Merge
import SchemaForm.Schema.MergeSize
import SchemaForm.Schema.Normalize
import SchemaForm.Schema.Reference
import SchemaForm.Schema.Type
import SchemaForm.SortedMap
import SchemaForm.Store.Basic
import SchemaForm.Store.Dirty
import SchemaForm.Store.Registry
import SchemaForm.Text.CharRanges
import SchemaForm.Text.Fold
import SchemaForm.Validation.Annotate
import SchemaForm.Validation.Cache
import SchemaForm.Validation.Check
import SchemaForm.Validation.Check.Applicator
import SchemaForm.Validation.Check.Assertion
import SchemaForm.Validation.Check.Demand
import SchemaForm.Validation.Check.Fault
import SchemaForm.Validation.Check.Fragment
import SchemaForm.Validation.Check.WellFormed
import SchemaForm.Validation.Issue
import SchemaForm.Value.Coerce
import SchemaForm.Value.Seed
