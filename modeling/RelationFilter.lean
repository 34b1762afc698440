import RelationFilter.Text.Quoted
import RelationFilter.Text.Keyword
import RelationFilter.Text.Word
import RelationFilter.Text.Digit
import RelationFilter.Decimal.Layout
import RelationFilter.Decimal.Read
import RelationFilter.Json.Printer
import RelationFilter.Json.Parser
import RelationFilter.Sql.Dialect
import RelationFilter.Sql.Bindings
import RelationFilter.Sql.Placeholder
import RelationFilter.Sql.Render
import RelationFilter.Sql.Select
import RelationFilter.Schema.Catalog
import RelationFilter.Schema.Reader
import RelationFilter.Schema.Writer
import RelationFilter.Settings
import RelationFilter.Path.Segment
import RelationFilter.Path.Allowed
import RelationFilter.Path.FieldList
import RelationFilter.Path.TableScope
import RelationFilter.Path.Request
import RelationFilter.Path.Route
import RelationFilter.Path.RecordScope
import RelationFilter.Filter.Search
import RelationFilter.Proofs.Filter.Reading
import RelationFilter.Proofs.Path.Mirror
import RelationFilter.Proofs.Search
import RelationFilter.Proofs.Path.Collision
import RelationFilter.Proofs.Path.Registry
import RelationFilter.Proofs.Sql.Bindings
import RelationFilter.Proofs.Sql.Quoting
import RelationFilter.Proofs.Sql.Statement
import RelationFilter.Proofs.Sql.Uniform
import RelationFilter.Proofs.Sql.Structure
import RelationFilter.Proofs.Sql.Union
import RelationFilter.Proofs.Filter.Grouping
import RelationFilter.Proofs.Json.Printed
import RelationFilter.Proofs.Sql.Pieces
import RelationFilter.Proofs.Sql.Signature
import RelationFilter.Proofs.Path.Renumber
import RelationFilter.Proofs.Schema.Lookup
import RelationFilter.Proofs.Path.History
import RelationFilter.Proofs.Filter.Standing
import RelationFilter.Proofs.Path.Email
import RelationFilter.Proofs.Filter.Guard
import RelationFilter.Proofs.Path.Injection
import RelationFilter.Proofs.Schema.Changes
import RelationFilter.Proofs.Path.Loading
import RelationFilter.Proofs.Sql.Truth
import RelationFilter.Proofs.Filter.Equality
import RelationFilter.Proofs.Filter.Pattern
import RelationFilter.Proofs.Path.Reads
import RelationFilter.Proofs.Filter.Likeness
import RelationFilter.Proofs.Path.Hop
import RelationFilter.Proofs.Path.Multiplicity
import RelationFilter.Proofs.Path.Depth
import RelationFilter.Proofs.Path.Fault
import RelationFilter.Proofs.Path.Position
import RelationFilter.Proofs.Path.Order
import RelationFilter.Proofs.Schema.IndexText
import RelationFilter.Proofs.Path.Reference
import RelationFilter.Proofs.Path.Entry
import RelationFilter.Proofs.Path.Document
import RelationFilter.Proofs.Path.Modifier
import RelationFilter.Proofs.Path.Uniqueness
import RelationFilter.Proofs.Path.Naming
import RelationFilter.Proofs.Sql.JoinList
import RelationFilter.Proofs.Sql.AliasText
import RelationFilter.Proofs.Path.Transfer
import RelationFilter.Proofs.Sql.Overwrite
import RelationFilter.Proofs.Sql.Embedded
import RelationFilter.Proofs.Sql.Precedence
import RelationFilter.Proofs.Sql.Shortcut
import RelationFilter.Proofs.Sql.Requoting
import RelationFilter.Proofs.Total
import RelationFilter.Proofs.Filter.SortedEmail
import RelationFilter.Proofs.Filter.Sorting
import RelationFilter.Proofs.Page
import RelationFilter.Proofs.Schema.RoundTrip
import RelationFilter.Proofs.Path.Submitted
import RelationFilter.Proofs.Time.Period
import RelationFilter.Proofs.Sql.FreeSlot
import RelationFilter.Proofs.Schema.TopLevel
