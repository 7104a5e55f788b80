import SingleTable.Calendar.Date
import SingleTable.Calendar.Reading
import SingleTable.Calendar.Timestamp
import SingleTable.Catalog
import SingleTable.ColumnType
import SingleTable.Config.Basic
import SingleTable.Config.Document
import SingleTable.Diagnosis
import SingleTable.Dialect
import SingleTable.Error
import SingleTable.Filter.Operand
import SingleTable.Filter.Reading
import SingleTable.Filter.Tree
import SingleTable.Filter.Word
import SingleTable.Identifier
import SingleTable.Json.Basic
import SingleTable.Json.Cast
import SingleTable.Json.Text
import SingleTable.Model
import SingleTable.Number.Double
import SingleTable.Number.Reading
import SingleTable.Number.Shortest
import SingleTable.Param.Basic
import SingleTable.Param.Tagged
import SingleTable.Pattern.Expression
import SingleTable.Pattern.Like
import SingleTable.Pattern.Network
import SingleTable.Pattern.Uuid
import SingleTable.Payload
import SingleTable.Proofs.Calendar.Days
import SingleTable.Proofs.Calendar.Written
import SingleTable.Proofs.Catalog.Indexed
import SingleTable.Proofs.ColumnType.Nested
import SingleTable.Proofs.ColumnType.Tag
import SingleTable.Proofs.Config.Stored
import SingleTable.Proofs.Diagnosis.Duplicate
import SingleTable.Proofs.Filter.Normal
import SingleTable.Proofs.Identifier.Quoting
import SingleTable.Proofs.Json.Cast
import SingleTable.Proofs.Json.Equality
import SingleTable.Proofs.Model.Calls
import SingleTable.Proofs.Model.Edge
import SingleTable.Proofs.Model.Names
import SingleTable.Proofs.Model.Refusals
import SingleTable.Proofs.Model.Session
import SingleTable.Proofs.Model.Target
import SingleTable.Proofs.Model.Writable
import SingleTable.Proofs.Number.Order
import SingleTable.Proofs.Number.Reading
import SingleTable.Proofs.Number.Rounding
import SingleTable.Proofs.Number.Shortest
import SingleTable.Proofs.Number.Size
import SingleTable.Proofs.Param.Holding
import SingleTable.Proofs.Param.Tagged
import SingleTable.Proofs.Param.Temporal
import SingleTable.Proofs.Pattern.Network
import SingleTable.Proofs.Pattern.Regular
import SingleTable.Proofs.Pattern.Wildcards
import SingleTable.Proofs.Payload.Faults
import SingleTable.Proofs.Payload.Numbers
import SingleTable.Proofs.Payload.Remapping
import SingleTable.Proofs.Payload.Schema
import SingleTable.Proofs.Payload.Shape
import SingleTable.Proofs.Payload.Sources
import SingleTable.Proofs.Payload.Spelling
import SingleTable.Proofs.Query.Faults
import SingleTable.Proofs.Query.Language
import SingleTable.Proofs.Query.Normal
import SingleTable.Proofs.Rows.Days
import SingleTable.Proofs.Rows.Hidden
import SingleTable.Proofs.Rows.Integers
import SingleTable.Proofs.Rows.Membership
import SingleTable.Proofs.Rows.Ordering
import SingleTable.Proofs.Rows.Patterns
import SingleTable.Proofs.Rows.Restoring
import SingleTable.Proofs.Rows.Sorting
import SingleTable.Proofs.Sql.Agreement
import SingleTable.Proofs.Sql.Alignment
import SingleTable.Proofs.Sql.Batch
import SingleTable.Proofs.Sql.Building
import SingleTable.Proofs.Sql.Containment
import SingleTable.Proofs.Sql.Grammar
import SingleTable.Proofs.Sql.Insertion
import SingleTable.Proofs.Sql.Keyed
import SingleTable.Proofs.Sql.Lexeme
import SingleTable.Proofs.Sql.Naming
import SingleTable.Proofs.Sql.Noninterference
import SingleTable.Proofs.Sql.Overwriting
import SingleTable.Proofs.Sql.Reads
import SingleTable.Proofs.Sql.Request
import SingleTable.Proofs.Sql.SearchCondition
import SingleTable.Proofs.Sql.Selection
import SingleTable.Proofs.Sql.Translation
import SingleTable.Proofs.Sql.Writing
import SingleTable.Proofs.Text.Blank
import SingleTable.Proofs.Text.Camel
import SingleTable.Proofs.Text.Digits
import SingleTable.Query
import SingleTable.Rows.Compare
import SingleTable.Rows.Matching
import SingleTable.Sql.Building
import SingleTable.Sql.Filter
import SingleTable.Sql.Fragment
import SingleTable.Sql.Statement
import SingleTable.Text.Blank
import SingleTable.Text.Camel
import SingleTable.Text.Casing
import SingleTable.Text.Cluster.Basic
import SingleTable.Text.Cluster.Role
import SingleTable.Text.Digits
import SingleTable.Text.Letters
import SingleTable.Text.Marks
import SingleTable.Text.Order
import SingleTable.Text.Scan
