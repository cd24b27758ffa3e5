import EntityQuery.Binary.Basic
import EntityQuery.Binary.Format
import EntityQuery.Binary.Numeral
import EntityQuery.Binary.Shortest
import EntityQuery.Calendar.Date
import EntityQuery.Calendar.Parser
import EntityQuery.Calendar.Timestamp
import EntityQuery.Condition.Basic
import EntityQuery.Condition.Group
import EntityQuery.Condition.Pattern
import EntityQuery.Condition.Rule
import EntityQuery.Config
import EntityQuery.Decimal.Basic
import EntityQuery.Decimal.OfBinary
import EntityQuery.Decimal.Parser
import EntityQuery.Error
import EntityQuery.Filter.Group
import EntityQuery.Filter.Operator
import EntityQuery.Filter.Rule
import EntityQuery.Json.Basic
import EntityQuery.Json.Number
import EntityQuery.Json.NumberToken
import EntityQuery.Json.Parser
import EntityQuery.Json.Printer
import EntityQuery.Literal
import EntityQuery.Path.Accessor
import EntityQuery.Path.Cache
import EntityQuery.Path.Resolve
import EntityQuery.Path.Segment
import EntityQuery.Predicate
import EntityQuery.Proofs.Binary.Nearest
import EntityQuery.Proofs.Binary.Quantity
import EntityQuery.Proofs.Binary.Rounding
import EntityQuery.Proofs.Binary.Value
import EntityQuery.Proofs.Condition.Comparison
import EntityQuery.Proofs.Condition.Element
import EntityQuery.Proofs.Condition.Folding
import EntityQuery.Proofs.Condition.Pattern
import EntityQuery.Proofs.Condition.Typing
import EntityQuery.Proofs.Decimal.Nearness
import EntityQuery.Proofs.Decimal.OfBinary
import EntityQuery.Proofs.Decimal.Plain
import EntityQuery.Proofs.Decimal.Scaled
import EntityQuery.Proofs.Decimal.Trade
import EntityQuery.Proofs.Decimal.Value
import EntityQuery.Proofs.Group.Compile
import EntityQuery.Proofs.Group.Deduplication
import EntityQuery.Proofs.Group.Duality
import EntityQuery.Proofs.Group.Equality
import EntityQuery.Proofs.Group.Failure
import EntityQuery.Proofs.Group.LetterCase
import EntityQuery.Proofs.Group.NormalForm
import EntityQuery.Proofs.Group.Observation
import EntityQuery.Proofs.Group.Sequence
import EntityQuery.Proofs.Literal.Excerpt
import EntityQuery.Proofs.Literal.Integer
import EntityQuery.Proofs.Literal.Plain
import EntityQuery.Proofs.Literal.Twin
import EntityQuery.Proofs.Literal.Typing
import EntityQuery.Proofs.Outcome
import EntityQuery.Proofs.Path.Cache
import EntityQuery.Proofs.Path.History
import EntityQuery.Proofs.Path.LetterCase
import EntityQuery.Proofs.Path.Resolution
import EntityQuery.Proofs.Path.Segment
import EntityQuery.Proofs.Path.Typing
import EntityQuery.Proofs.Path.Walk
import EntityQuery.Proofs.Query.Builder
import EntityQuery.Proofs.Query.Selection
import EntityQuery.Proofs.Rule.Between
import EntityQuery.Proofs.Rule.Compile
import EntityQuery.Proofs.Rule.Folding
import EntityQuery.Proofs.Rule.LetterCase
import EntityQuery.Proofs.Rule.Literal
import EntityQuery.Proofs.Rule.Membership
import EntityQuery.Proofs.Rule.Mirror
import EntityQuery.Proofs.Rule.Null
import EntityQuery.Proofs.Rule.Relation
import EntityQuery.Proofs.Rule.Same
import EntityQuery.Proofs.Rule.Semantics
import EntityQuery.Proofs.Rule.Trichotomy
import EntityQuery.Proofs.Rule.Typing
import EntityQuery.Proofs.Rule.Wildcard
import EntityQuery.Proofs.Shelf
import EntityQuery.Proofs.Sort.Aggregate
import EntityQuery.Proofs.Sort.Comparator
import EntityQuery.Proofs.Sort.Composition
import EntityQuery.Proofs.Sort.Extreme
import EntityQuery.Proofs.Sort.Key
import EntityQuery.Proofs.Sort.Partition
import EntityQuery.Proofs.Sort.Rearrangement
import EntityQuery.Proofs.Sort.Stable
import EntityQuery.Proofs.Text.Boundary
import EntityQuery.Proofs.Text.LowerCase
import EntityQuery.Proofs.Value.Coherence
import EntityQuery.Proofs.Value.Compatible
import EntityQuery.Proofs.Value.Exact
import EntityQuery.Proofs.Value.LetterCase
import EntityQuery.Proofs.Value.Number
import EntityQuery.Proofs.Value.SortOrder
import EntityQuery.Proofs.Value.Symmetry
import EntityQuery.Proofs.Value.Trichotomy
import EntityQuery.Proofs.Value.Twin
import EntityQuery.Proofs.Wire.Filter
import EntityQuery.Proofs.Wire.Node
import EntityQuery.Proofs.Wire.Record
import EntityQuery.Proofs.Wire.RoundTrip
import EntityQuery.Query.Basic
import EntityQuery.Query.Builder
import EntityQuery.Schema
import EntityQuery.Sort.Aggregate
import EntityQuery.Sort.Comparator
import EntityQuery.Sort.Rule
import EntityQuery.Text.Case
import EntityQuery.Text.CaseTable
import EntityQuery.Text.Digits
import EntityQuery.Text.Piece
import EntityQuery.Uuid
import EntityQuery.Value.Basic
import EntityQuery.Value.Order
import EntityQuery.Value.Type
import EntityQuery.Wire.Filter
import EntityQuery.Wire.Query
import EntityQuery.Wire.Record
