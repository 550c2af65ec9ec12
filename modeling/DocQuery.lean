import DocQuery.Bytes
import DocQuery.Calendar
import DocQuery.Catalog
import DocQuery.Collection
import DocQuery.Command
import DocQuery.Comparison
import DocQuery.Connection
import DocQuery.Database
import DocQuery.Double
import DocQuery.Double.Shortest
import DocQuery.Error
import DocQuery.Expression
import DocQuery.Field
import DocQuery.Field.Form
import DocQuery.Filter
import DocQuery.Filter.Compile
import DocQuery.Filter.Form
import DocQuery.Grouping
import DocQuery.Join
import DocQuery.Json
import DocQuery.Json.Form
import DocQuery.Json.Parser
import DocQuery.Matching
import DocQuery.Operand
import DocQuery.Operand.Form
import DocQuery.Patterns
import DocQuery.Pipeline
import DocQuery.Projection
import DocQuery.Proofs.Atomicity
import DocQuery.Proofs.ByteOrder
import DocQuery.Proofs.Coercion
import DocQuery.Proofs.CollectionWrites
import DocQuery.Proofs.ConditionSides
import DocQuery.Proofs.Containment
import DocQuery.Proofs.CopiedPaths
import DocQuery.Proofs.CreatedRows
import DocQuery.Proofs.Decoding
import DocQuery.Proofs.Deletions
import DocQuery.Proofs.Deliveries
import DocQuery.Proofs.DivergingPaths
import DocQuery.Proofs.EnginePieces
import DocQuery.Proofs.EngineSearches
import DocQuery.Proofs.EqualValues
import DocQuery.Proofs.Equality
import DocQuery.Proofs.EqualityLaws
import DocQuery.Proofs.ExtremalValues
import DocQuery.Proofs.FilterMeaning
import DocQuery.Proofs.FilteredRows
import DocQuery.Proofs.Groups
import DocQuery.Proofs.Identification
import DocQuery.Proofs.Independence
import DocQuery.Proofs.IndexCreation
import DocQuery.Proofs.InputRows
import DocQuery.Proofs.Insertions
import DocQuery.Proofs.IntegerSums
import DocQuery.Proofs.Isolation
import DocQuery.Proofs.JoinFrames
import DocQuery.Proofs.JoinedReads
import DocQuery.Proofs.JoinedRows
import DocQuery.Proofs.JsonForms
import DocQuery.Proofs.KeptIdentities
import DocQuery.Proofs.LeftJoins
import DocQuery.Proofs.ListedPaths
import DocQuery.Proofs.MirroredJoins
import DocQuery.Proofs.OrEqual
import DocQuery.Proofs.OrderLaws
import DocQuery.Proofs.Pages
import DocQuery.Proofs.PlainReads
import DocQuery.Proofs.ProjectedRows
import DocQuery.Proofs.Reductions
import DocQuery.Proofs.Refusals
import DocQuery.Proofs.RepeatedKeys
import DocQuery.Proofs.RepeatedUpdates
import DocQuery.Proofs.RepeatedWrites
import DocQuery.Proofs.Replies
import DocQuery.Proofs.Requests
import DocQuery.Proofs.RowPaths
import DocQuery.Proofs.RowReads
import DocQuery.Proofs.Selection
import DocQuery.Proofs.SortedDocuments
import DocQuery.Proofs.SortedRows
import DocQuery.Proofs.StorageEquality
import DocQuery.Proofs.Summaries
import DocQuery.Proofs.SupportedQueries
import DocQuery.Proofs.TextPatterns
import DocQuery.Proofs.UniqueConstraints
import DocQuery.Proofs.Uniqueness
import DocQuery.Proofs.UpdateRuns
import DocQuery.Proofs.UpdateTargets
import DocQuery.Proofs.UpdatedDocuments
import DocQuery.Proofs.ValueOrder
import DocQuery.Proofs.ValueParts
import DocQuery.Proofs.WriteScope
import DocQuery.Proofs.WrittenPaths
import DocQuery.Query
import DocQuery.Query.Form
import DocQuery.QueryPlan
import DocQuery.Row
import DocQuery.Row.Decode
import DocQuery.Runtime.Address
import DocQuery.Runtime.ConnectionString
import DocQuery.Runtime.Regex.Bracket
import DocQuery.Runtime.Regex.CharSet
import DocQuery.Runtime.Regex.Engine
import DocQuery.Runtime.Regex.Escape
import DocQuery.Runtime.Regex.Matching
import DocQuery.Runtime.Regex.Nested
import DocQuery.Runtime.Regex.Parser
import DocQuery.Runtime.Regex.Size
import DocQuery.Runtime.Regex.Syntax
import DocQuery.Runtime.Text.Alphabetic
import DocQuery.Runtime.Text.Blank
import DocQuery.Runtime.Text.CaseFold
import DocQuery.Runtime.Text.Cased
import DocQuery.Runtime.Text.Digit
import DocQuery.Runtime.Text.Lossy
import DocQuery.Runtime.Text.Lowercase
import DocQuery.Runtime.Text.Ranges
import DocQuery.Runtime.Text.Utf8
import DocQuery.Runtime.Text.Word
import DocQuery.Schema
import DocQuery.Schema.Form
import DocQuery.Session
import DocQuery.Settings
import DocQuery.Sort
import DocQuery.SortedMap
import DocQuery.Sorting
import DocQuery.StableSort
import DocQuery.Stage
import DocQuery.Store
import DocQuery.Update
import DocQuery.Value
import DocQuery.Value.Form
import DocQuery.Value.Order
import DocQuery.Value.Path
import DocQuery.Value.Text
