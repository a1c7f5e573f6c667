import SchemaDdl.Action
import SchemaDdl.Capability.BuiltIn
import SchemaDdl.Capability.Feature
import SchemaDdl.Capability.Listing
import SchemaDdl.Capability.Set
import SchemaDdl.Change.Column
import SchemaDdl.Change.Table
import SchemaDdl.Command
import SchemaDdl.Command.Arguments
import SchemaDdl.DeclaredType
import SchemaDdl.DeclaredType.Widening
import SchemaDdl.Defect
import SchemaDdl.Dialect
import SchemaDdl.Digest
import SchemaDdl.History.Instant
import SchemaDdl.History.Record
import SchemaDdl.Json.Decode
import SchemaDdl.Json.Printer
import SchemaDdl.Json.Reader
import SchemaDdl.Json.Value
import SchemaDdl.Main
import SchemaDdl.Number.Binary64
import SchemaDdl.Number.Decimal
import SchemaDdl.Plan.Alteration
import SchemaDdl.Plan.Creation
import SchemaDdl.Plan.Dependency
import SchemaDdl.Plan.Limits
import SchemaDdl.Plan.Migration
import SchemaDdl.Plan.Rename
import SchemaDdl.Plan.Warning
import SchemaDdl.Schema.Building
import SchemaDdl.Schema.Column
import SchemaDdl.Schema.Constraint
import SchemaDdl.Schema.Index
import SchemaDdl.Schema.Model
import SchemaDdl.Schema.Name
import SchemaDdl.Schema.Objects
import SchemaDdl.Schema.Snapshot
import SchemaDdl.Schema.Table
import SchemaDdl.Script.Pattern
import SchemaDdl.Script.Adaptation
import SchemaDdl.Script.Rule
import SchemaDdl.Sql.DefaultClause
import SchemaDdl.Sql.Expression
import SchemaDdl.Sql.Quoted
import SchemaDdl.Sql.Reserved
import SchemaDdl.Statement
import SchemaDdl.Text.Blank
import SchemaDdl.Text.Digit
import SchemaDdl.Text.EditDistance
import SchemaDdl.Text.Fold
import SchemaDdl.Text.Phrase
import SchemaDdl.Text.Segment
import SchemaDdl.Text.Word
import SchemaDdl.Validation.Code
import SchemaDdl.Validation.Columns
import SchemaDdl.Validation.Finding
import SchemaDdl.Validation.Issue
import SchemaDdl.Validation.Malformed
import SchemaDdl.Validation.Objects
import SchemaDdl.Validation.Platform
import SchemaDdl.Validation.Tables
import SchemaDdl.Validation.Tenancy
import SchemaDdl.Validation.Validate
import SchemaDdl.Writing.Action
import SchemaDdl.Writing.Alteration
import SchemaDdl.Writing.Column
import SchemaDdl.Writing.Index
import SchemaDdl.Writing.Objects
import SchemaDdl.Writing.Recreation
import SchemaDdl.Writing.Table
import SchemaDdl.Writing.Target
import SchemaDdl.Proofs.Change.Danger
import SchemaDdl.Proofs.DeclaredType.Widening
import SchemaDdl.Proofs.Plan.Alteration
import SchemaDdl.Proofs.Plan.Dependency
import SchemaDdl.Proofs.Plan.Families
import SchemaDdl.Proofs.Plan.Removal
import SchemaDdl.Proofs.Plan.Statements
import SchemaDdl.Proofs.Validation.Agreement
import SchemaDdl.Proofs.Plan.Phases
import SchemaDdl.Proofs.Plan.Creation
import SchemaDdl.Proofs.Schema.Equivalence
import SchemaDdl.Proofs.Plan.Emptiness
import SchemaDdl.Proofs.Plan.Parts
import SchemaDdl.Proofs.Plan.Order
import SchemaDdl.Proofs.Plan.References
import SchemaDdl.Proofs.Ledger
import SchemaDdl.Proofs.Plan.Triggers
import SchemaDdl.Proofs.Plan.Indexes
import SchemaDdl.Proofs.Plan.ConstraintNames
import SchemaDdl.Proofs.Plan.Departures
import SchemaDdl.Proofs.Plan.Regeneration
import SchemaDdl.Proofs.Plan.Objects
import SchemaDdl.Proofs.Validation.Targets
import SchemaDdl.Proofs.Schema.DefaultSchema
import SchemaDdl.Proofs.Plan.Spelling
import SchemaDdl.Proofs.Number.Finite
import SchemaDdl.Proofs.Json.Extent
import SchemaDdl.Proofs.Json.Token
import SchemaDdl.Proofs.Json.Reading
import SchemaDdl.Proofs.Json.Codec
import SchemaDdl.Proofs.Schema.Snapshot
import SchemaDdl.Proofs.Text.Lines
import SchemaDdl.Proofs.Text.OneLine
import SchemaDdl.Proofs.Script.Segments
import SchemaDdl.Proofs.Script.Opening
import SchemaDdl.Proofs.Script.Transactions
import SchemaDdl.Proofs.Correspondence
import SchemaDdl.Proofs.Writing.OneLine
import SchemaDdl.Proofs.Writing.Twins
import SchemaDdl.Proofs.Writing.Calm
import SchemaDdl.Proofs.Plan.Twins
import SchemaDdl.Proofs.Plan.Transactions
import SchemaDdl.Proofs.Script.Settled
import SchemaDdl.Proofs.Script.Whole
import SchemaDdl.Proofs.Plan.Frame
import SchemaDdl.Proofs.Plan.Wording
import SchemaDdl.Proofs.Schema.Definite
import SchemaDdl.Proofs.Validation.Monotone
import SchemaDdl.Proofs.Validation.Reordering
import SchemaDdl.Proofs.Sql.Reading
import SchemaDdl.Proofs.Plan.Circles
import SchemaDdl.Proofs.Plan.PlainColumn
import SchemaDdl.Proofs.Plan.NewTables
import SchemaDdl.Proofs.Plan.Labels
import SchemaDdl.Proofs.Plan.Columns
import SchemaDdl.Proofs.Plan.InPlace
import SchemaDdl.Proofs.Plan.Recreation
import SchemaDdl.Proofs.Plan.Backfill
import SchemaDdl.Proofs.Plan.ConstraintReplay
import SchemaDdl.Proofs.Plan.IndexDepartures
import SchemaDdl.Proofs.Plan.ColumnDefaults
import SchemaDdl.Proofs.DeclaredType.Preorder
import SchemaDdl.Proofs.Text.Splitting
import SchemaDdl.Proofs.DeclaredType.Spelling
import SchemaDdl.Proofs.DeclaredType.Values
import SchemaDdl.Proofs.Plan.TableSettings
import SchemaDdl.Proofs.Plan.Comments
import SchemaDdl.Proofs.DeclaredType.Entries
import SchemaDdl.Proofs.Plan.Rebuilding
import SchemaDdl.Proofs.Plan.Shadows
import SchemaDdl.Proofs.Writing.Renaming
import SchemaDdl.Proofs.Text.Size
import SchemaDdl.Proofs.Script.Shrinking
import SchemaDdl.Proofs.Script.Definitions
import SchemaDdl.Proofs.Script.Heads
import SchemaDdl.Proofs.Script.Offsets
import SchemaDdl.Proofs.Script.Edits
import SchemaDdl.Proofs.Plan.Limits
import SchemaDdl.Proofs.Sql.Nesting
import SchemaDdl.Proofs.Sql.Expression
import SchemaDdl.Proofs.Sql.Constant
import SchemaDdl.Proofs.Writing.DollarQuotes
import SchemaDdl.Proofs.Number.Basin
import SchemaDdl.Proofs.Number.Layout
import SchemaDdl.Proofs.Sql.ArrayText
import SchemaDdl.Proofs.Writing.ValueSources
import SchemaDdl.Proofs.Writing.KeyDeclarations
import SchemaDdl.Proofs.Validation.Subjects
import SchemaDdl.Proofs.Validation.Sequences
import SchemaDdl.Proofs.Sql.Calls
import SchemaDdl.Proofs.Validation.SequenceDefaults
import SchemaDdl.Proofs.Validation.Refusals
import SchemaDdl.Proofs.Plan.Securing
import SchemaDdl.Proofs.History.Rollback
import SchemaDdl.Proofs.History.Timestamps
import SchemaDdl.Proofs.Text.EditDistance
import SchemaDdl.Proofs.Number.Unit
import SchemaDdl.Proofs.Plan.Renames
