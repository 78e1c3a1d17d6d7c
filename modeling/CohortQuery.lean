import CohortQuery.Bindings
import CohortQuery.Cohort.Compile
import CohortQuery.Cohort.Condition
import CohortQuery.Cohort.Encode
import CohortQuery.Cohort.Read
import CohortQuery.CommandLine.Command
import CohortQuery.CommandLine.Help
import CohortQuery.CommandLine.Invocation
import CohortQuery.CommandLine.Level
import CohortQuery.CommandLine.Options
import CohortQuery.Decimal.Binary64
import CohortQuery.Decimal.Layout
import CohortQuery.Decimal.Numeral
import CohortQuery.Decimal.Power
import CohortQuery.Decimal.Shortest
import CohortQuery.Disk
import CohortQuery.Environment.Basic
import CohortQuery.Environment.File
import CohortQuery.Error
import CohortQuery.Json.Decode
import CohortQuery.Json.Fault
import CohortQuery.Json.Located
import CohortQuery.Json.Read
import CohortQuery.Json.Skip
import CohortQuery.Json.Token
import CohortQuery.Json.Value
import CohortQuery.Limits
import CohortQuery.Log.Entry
import CohortQuery.Log.Filter
import CohortQuery.Main
import CohortQuery.Params
import CohortQuery.Path
import CohortQuery.Program.Failure
import CohortQuery.Program.Run
import CohortQuery.Program.Work
import CohortQuery.Proofs.Binder
import CohortQuery.Proofs.Closed
import CohortQuery.Proofs.Cohort.Agreement
import CohortQuery.Proofs.Cohort.Behaviour
import CohortQuery.Proofs.Cohort.Complement
import CohortQuery.Proofs.Cohort.Concurrency
import CohortQuery.Proofs.Cohort.Dated
import CohortQuery.Proofs.Cohort.Definition
import CohortQuery.Proofs.Cohort.Depth
import CohortQuery.Proofs.Cohort.Encoding
import CohortQuery.Proofs.Cohort.Grammar
import CohortQuery.Proofs.Cohort.Interruption
import CohortQuery.Proofs.Cohort.Listed
import CohortQuery.Proofs.Cohort.Literals
import CohortQuery.Proofs.Cohort.Lowered
import CohortQuery.Proofs.Cohort.Lowering
import CohortQuery.Proofs.Cohort.Materialize
import CohortQuery.Proofs.Cohort.Meaning
import CohortQuery.Proofs.Cohort.Moved
import CohortQuery.Proofs.Cohort.Names
import CohortQuery.Proofs.Cohort.Number
import CohortQuery.Proofs.Cohort.Operands
import CohortQuery.Proofs.Cohort.Operator
import CohortQuery.Proofs.Cohort.Parts
import CohortQuery.Proofs.Cohort.Reading
import CohortQuery.Proofs.Cohort.Reason
import CohortQuery.Proofs.Cohort.Refusal
import CohortQuery.Proofs.Cohort.Served
import CohortQuery.Proofs.Cohort.Shape
import CohortQuery.Proofs.Cohort.Shifted
import CohortQuery.Proofs.Cohort.Statement
import CohortQuery.Proofs.Cohort.Substring
import CohortQuery.Proofs.Cohort.Tree
import CohortQuery.Proofs.Compiled
import CohortQuery.Proofs.Decimal.Grid
import CohortQuery.Proofs.Decimal.Reading
import CohortQuery.Proofs.Decimal.Rounding
import CohortQuery.Proofs.Decimal.Shortest
import CohortQuery.Proofs.Fresh
import CohortQuery.Proofs.Isolation
import CohortQuery.Proofs.Json.Compact
import CohortQuery.Proofs.Json.Distinct
import CohortQuery.Proofs.Json.Legible
import CohortQuery.Proofs.Json.Record
import CohortQuery.Proofs.Json.Shown
import CohortQuery.Proofs.Numbered
import CohortQuery.Proofs.Path
import CohortQuery.Proofs.Program.Limits
import CohortQuery.Proofs.Program.Preview
import CohortQuery.Proofs.Program.Printed
import CohortQuery.Proofs.Property.AllowList
import CohortQuery.Proofs.Report.Listing
import CohortQuery.Proofs.Report.Lowering
import CohortQuery.Proofs.Report.Paging
import CohortQuery.Proofs.Report.Range
import CohortQuery.Proofs.Report.Shared
import CohortQuery.Proofs.Settings.Layers
import CohortQuery.Proofs.Sql.Clause
import CohortQuery.Proofs.Sql.Edit
import CohortQuery.Proofs.Sql.Expression
import CohortQuery.Proofs.Sql.Formula
import CohortQuery.Proofs.Sql.Fragment
import CohortQuery.Proofs.Sql.Gathering
import CohortQuery.Proofs.Sql.Hole
import CohortQuery.Proofs.Sql.Inert
import CohortQuery.Proofs.Sql.Item
import CohortQuery.Proofs.Sql.Key
import CohortQuery.Proofs.Sql.Predicate
import CohortQuery.Proofs.Sql.Query
import CohortQuery.Proofs.Sql.Quotation
import CohortQuery.Proofs.Sql.Reader
import CohortQuery.Proofs.Sql.Row
import CohortQuery.Proofs.Sql.Scope
import CohortQuery.Proofs.Sql.Sign
import CohortQuery.Proofs.Sql.Table
import CohortQuery.Proofs.Sql.Test
import CohortQuery.Proofs.Sql.Token
import CohortQuery.Proofs.Sql.Twin
import CohortQuery.Proofs.Store.Catalogue
import CohortQuery.Proofs.Store.Conversation
import CohortQuery.Proofs.Store.Dictionary
import CohortQuery.Proofs.Store.FirstRows
import CohortQuery.Proofs.Store.Marked
import CohortQuery.Proofs.Store.Migration
import CohortQuery.Proofs.Store.Operands
import CohortQuery.Proofs.Store.Sending
import CohortQuery.Proofs.Store.Serve
import CohortQuery.Proofs.Store.Tables
import CohortQuery.Proofs.Store.Template
import CohortQuery.Proofs.Store.Wire
import CohortQuery.Proofs.Text.Like
import CohortQuery.Proofs.Text.Numeral
import CohortQuery.Proofs.Text.Sorted
import CohortQuery.Proofs.Text.Trim
import CohortQuery.Proofs.Time.Calendar
import CohortQuery.Proofs.Time.Instant
import CohortQuery.Proofs.Time.Layout
import CohortQuery.Proofs.Time.Offset
import CohortQuery.Proofs.Time.Order
import CohortQuery.Proofs.Time.StoreForm
import CohortQuery.Proofs.Time.Zoned
import CohortQuery.Proofs.Uuid
import CohortQuery.Property.AllowList
import CohortQuery.Property.Compile
import CohortQuery.Property.Discovery
import CohortQuery.Property.Name
import CohortQuery.Property.Stored
import CohortQuery.Report.Filter
import CohortQuery.Report.FilterText
import CohortQuery.Report.Granularity
import CohortQuery.Report.Query
import CohortQuery.Settings.Basic
import CohortQuery.Settings.File
import CohortQuery.Settings.Load
import CohortQuery.Sql.Person
import CohortQuery.Sql.Predicate
import CohortQuery.Sql.Select
import CohortQuery.Store.Client
import CohortQuery.Store.Error
import CohortQuery.Store.Exchange
import CohortQuery.Store.Migration
import CohortQuery.Store.Operation
import CohortQuery.Store.Record
import CohortQuery.Store.Schema
import CohortQuery.Store.Status
import CohortQuery.Store.Template
import CohortQuery.Store.Wire
import CohortQuery.Text.Alphanumeric
import CohortQuery.Text.Blank
import CohortQuery.Text.Hidden
import CohortQuery.Text.Join
import CohortQuery.Text.Like
import CohortQuery.Text.Numeral
import CohortQuery.Text.Pieces
import CohortQuery.Text.Quoted
import CohortQuery.Time.Date
import CohortQuery.Time.DateTime
import CohortQuery.Time.Stamp
import CohortQuery.Uuid
