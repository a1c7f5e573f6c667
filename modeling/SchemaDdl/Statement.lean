import SchemaDdl.Json.Decode
import SchemaDdl.Text.Segment

/-!
# Statements

A statement as it is handed out: its text, what it does, whether it endangers rows that exist, and
the objects it touches.
-/

namespace SchemaDdl

/-- The leading verb of a statement. -/
inductive StatementKind where
  | create
  | alter
  | drop
deriving DecidableEq, Repr

def StatementKind.code : StatementKind → String
  | .create => "CREATE"
  | .alter => "ALTER"
  | .drop => "DROP"

/-- What a statement does. -/
inductive Operation where
  | createTable
  | dropTable
  | recreateTable
  | addColumn
  | dropColumn
  | alterColumn
  | addConstraint
  | dropConstraint
  | replaceConstraint
  | createIndex
  | dropIndex
  | createType
  | createSequence
  | createFunction
  | createTrigger
  | createPolicy
  | createView
  | createExtension
  | comment
  | tableSettings
deriving DecidableEq, Repr

def Operation.code : Operation → String
  | .createTable => "create_table"
  | .dropTable => "drop_table"
  | .recreateTable => "recreate_table"
  | .addColumn => "add_column"
  | .dropColumn => "drop_column"
  | .alterColumn => "alter_column"
  | .addConstraint => "add_constraint"
  | .dropConstraint => "drop_constraint"
  | .replaceConstraint => "replace_constraint"
  | .createIndex => "create_index"
  | .dropIndex => "drop_index"
  | .createType => "create_type"
  | .createSequence => "create_sequence"
  | .createFunction => "create_function"
  | .createTrigger => "create_trigger"
  | .createPolicy => "create_policy"
  | .createView => "create_view"
  | .createExtension => "create_extension"
  | .comment => "comment"
  | .tableSettings => "table_settings"

/-- A statement without its final semicolon. A recreation holds several statements, with a semicolon
and a line break between them. -/
structure Statement where
  sql : String
  kind : StatementKind
  operation : Operation
  destructive : Bool
  affected : List String
deriving DecidableEq, Repr

def Statement.encode (statement : Statement) : Json.Value :=
  .object
    [("sql", .string statement.sql), ("kind", .string statement.kind.code),
      ("operation", .string statement.operation.code),
      ("destructive", .bool statement.destructive),
      ("affected", Json.Value.ofStrings statement.affected)]

/-- The texts of statements as one script, with an empty line between them. -/
def scriptOf (statements : List String) : String :=
  Text.join "\n\n" (statements.map (· ++ ";"))

/-- Choices in the wording of statements. -/
structure Options where
  /-- Create only what does not exist. -/
  ifNotExists : Bool := false
  /-- Drop only what exists. -/
  ifExists : Bool := false
  /-- Drop what depends on an object with it. -/
  cascade : Bool := false
  /-- Write automatic numbers as identity columns and not as serial types. -/
  identityColumns : Bool := false
  /-- Write comments. -/
  comments : Bool := false
  /-- Build and drop indexes without locking their tables, where that is supported. -/
  concurrently : Bool := false
deriving DecidableEq, Repr, Inhabited

open Json.Decode in
def Options.decode : Json.Decoder Options := fun value => do
  let fields ←
    members ["if_not_exists", "if_exists", "cascade", "identity_columns", "comments",
      "concurrently"] value
  let ifNotExists ← defaulted "if_not_exists" false bool fields
  let ifExists ← defaulted "if_exists" false bool fields
  let cascade ← defaulted "cascade" false bool fields
  let identityColumns ← defaulted "identity_columns" false bool fields
  let comments ← defaulted "comments" false bool fields
  let concurrently ← defaulted "concurrently" false bool fields
  return { ifNotExists, ifExists, cascade, identityColumns, comments, concurrently }

end SchemaDdl
