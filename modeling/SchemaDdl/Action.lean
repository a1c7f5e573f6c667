import SchemaDdl.Change.Table
import SchemaDdl.Defect
import SchemaDdl.Schema.Model
import SchemaDdl.Statement

/-!
# Actions

What a single statement does to a schema, before it is put into words. Kind, operation and affected
objects belong to the action; only the text depends on how statements are written.
-/

namespace SchemaDdl

/-- A change of a column that stays in its place. The type is changed with or without a conversion
of the values. -/
inductive ColumnAction where
  | setType (convert : Bool)
  | setNotNull
  | dropNotNull
  | setDefault
  | convertToInteger
  | addIdentity
  | dropIdentity
  | dropExpression
deriving DecidableEq, Repr

/-- Whether a change can lose data or be refused for rows that exist. -/
def ColumnAction.destructive : ColumnAction → Bool
  | .setType convert => convert
  | .setNotNull | .convertToInteger => true
  | .dropNotNull | .setDefault | .addIdentity | .dropIdentity | .dropExpression => false

/-- A change of how a table is stored. -/
inductive TableSetting where
  | setLogged
  | setUnlogged
  | tablespace (name : Option String)
  | reset (keys : List String)
  | set (parameters : List StorageOption)
  | locality (clause : Option String)
  | zone (parameters : List StorageOption)
deriving DecidableEq, Repr

/-- One change of a schema. -/
inductive Action where
  | createExtension (extension : Extension)
  | createEnum (enumType : EnumType)
  | addEnumLabel (enumType : QualifiedName) (label : String) (before : Option String)
  | createSequence (sequence : Sequence)
  | ownSequence (sequence : QualifiedName) (owner : String)
  | createTable (table : Table)
  | dropTable (table : QualifiedName)
  | recreateTable (change : TableChange)
  /-- Adds a column of a table, which is given in its new version. A column that takes the place of
  one just dropped is added `again`. -/
  | addColumn (table : Table) (column : Column) (again : Bool)
  | dropColumn (table : QualifiedName) (column : String)
  | alterColumn (table : Table) (column : Column) (action : ColumnAction)
  /-- Constraints belong to a `subject`, a column or the constraint itself. -/
  | addConstraint (table : Table) (constraint : Constraint) (subject : String)
  | dropConstraint (table : QualifiedName) (name : String) (subject : String)
  | replaceConstraint (table : Table) (name : String) (constraint : Constraint) (subject : String)
  | replacePrimaryKey (change : TableChange)
  | setTable (table : QualifiedName) (setting : TableSetting)
  /-- A change of a table that no statement carries out. -/
  | refuse (table : QualifiedName) (construct : Construct)
  | createIndex (index : Index)
  | dropIndex (index : Index)
  | commentTable (table : QualifiedName) (comment : Option String)
  | commentColumn (table : QualifiedName) (column : String) (comment : Option String)
  | createView (view : View)
  | createFunction (function : StoredFunction)
  | createTrigger (trigger : Trigger)
  | enableRowLevelSecurity (table : QualifiedName)
  | createPolicy (policy : Policy)
deriving Repr

namespace Action

def kind : Action → StatementKind
  | .createExtension _ | .createEnum _ | .createSequence _ | .createTable _ | .createIndex _
  | .createView _ | .createFunction _ | .createTrigger _ | .createPolicy _ => .create
  | .dropTable _ | .dropIndex _ => .drop
  | .addEnumLabel .. | .ownSequence .. | .recreateTable _ | .addColumn .. | .dropColumn ..
  | .alterColumn .. | .addConstraint .. | .dropConstraint .. | .replaceConstraint ..
  | .replacePrimaryKey _ | .setTable .. | .refuse .. | .commentTable .. | .commentColumn ..
  | .enableRowLevelSecurity _ => .alter

def operation : Action → Operation
  | .createExtension _ => .createExtension
  | .createEnum _ | .addEnumLabel .. => .createType
  | .createSequence _ | .ownSequence .. => .createSequence
  | .createTable _ => .createTable
  | .dropTable _ => .dropTable
  | .recreateTable _ => .recreateTable
  | .addColumn .. => .addColumn
  | .dropColumn .. => .dropColumn
  | .alterColumn .. => .alterColumn
  | .addConstraint .. => .addConstraint
  | .dropConstraint .. => .dropConstraint
  | .replaceConstraint .. | .replacePrimaryKey _ => .replaceConstraint
  | .setTable .. | .refuse .. => .tableSettings
  | .createIndex _ => .createIndex
  | .dropIndex _ => .dropIndex
  | .commentTable .. | .commentColumn .. => .comment
  | .createView _ => .createView
  | .createFunction _ => .createFunction
  | .createTrigger _ => .createTrigger
  | .enableRowLevelSecurity _ | .createPolicy _ => .createPolicy

/-- The text by which a column of a table is named. -/
def columnPath (table : QualifiedName) (column : String) : String :=
  s!"{table.text}.{column}"

/-- The objects that an action touches, the one it is about first. -/
def affected : Action → List String
  | .createExtension extension => [extension.name]
  | .createEnum enumType => [enumType.name.text]
  | .addEnumLabel enumType _ _ => [enumType.text]
  | .createSequence sequence => [sequence.name.text]
  | .ownSequence sequence _ => [sequence.text]
  | .createTable table => [table.qualifiedName.text]
  | .dropTable table => [table.text]
  | .recreateTable change =>
      let table := change.new.qualifiedName
      table.text :: (change.removed.map (·.name) ++ change.added.map (·.name)
        ++ change.altered.map (·.new.name)).map (columnPath table)
  | .addColumn table column _ => [columnPath table.qualifiedName column.name]
  | .dropColumn table column => [columnPath table column]
  | .alterColumn table column _ => [columnPath table.qualifiedName column.name]
  | .addConstraint table _ subject => [columnPath table.qualifiedName subject]
  | .dropConstraint table _ subject => [columnPath table subject]
  | .replaceConstraint table _ _ subject => [columnPath table.qualifiedName subject]
  | .replacePrimaryKey change => [change.new.qualifiedName.text]
  | .setTable table _ => [table.text]
  | .refuse table _ => [table.text]
  | .createIndex index => [index.qualifiedName.text, index.table.text]
  | .dropIndex index => [index.qualifiedName.text, index.table.text]
  | .commentTable table _ => [table.text]
  | .commentColumn table column _ => [columnPath table column]
  | .createView view => [view.name.text]
  | .createFunction function => [function.name.text]
  | .createTrigger trigger => [trigger.location, trigger.table.text]
  | .enableRowLevelSecurity table => [table.text]
  | .createPolicy policy => [policy.location, policy.table.text]

/-- Whether an action can lose data or be refused for rows that exist. SQLite adds a column in place
only where that is safe. -/
def destructive (family : Family) : Action → Bool
  | .dropTable _ | .dropColumn .. | .addConstraint .. | .replaceConstraint .. => true
  | .recreateTable change => change.isDestructive
  | .addColumn _ column again =>
      match family with
      | .postgres => again || column.requiresBackfill || column.unique
      | .sqlite => false
  | .alterColumn _ _ action => action.destructive
  | .replacePrimaryKey change => !change.new.primaryKeyColumns.isEmpty
  | .createIndex index => index.unique
  | .createExtension _ | .createEnum _ | .addEnumLabel .. | .createSequence _ | .ownSequence ..
  | .createTable _ | .dropConstraint .. | .setTable .. | .refuse .. | .dropIndex _
  | .commentTable .. | .commentColumn .. | .createView _ | .createFunction _ | .createTrigger _
  | .enableRowLevelSecurity _ | .createPolicy _ => false

end Action

end SchemaDdl
