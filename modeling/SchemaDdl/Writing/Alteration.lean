import SchemaDdl.Action
import SchemaDdl.Writing.Table

/-!
# Alterations

The statements that change a table in place on the Postgres family, and the two of them that SQLite
knows: adding and dropping a column.
-/

namespace SchemaDdl

/-- The name of the primary key of a table: that of its constraint, or the usual one. -/
def Table.primaryKeyName (table : Table) : String :=
  match table.constraints.find? Constraint.isPrimaryKey with
  | some constraint => constraint.effectiveName table.name
  | none => s!"{table.name}_pkey"

namespace Target

def alterTableText (target : Target) (table : QualifiedName) (action : String) : String :=
  s!"ALTER TABLE {target.qualified table} {action}"

/-! ## Columns -/

def addColumnText (target : Target) (table : Table) (column : Column) : Attempt String := do
  let definition ← target.columnText table column
  return target.alterTableText table.qualifiedName s!"ADD COLUMN {definition}"

def dropColumnText (target : Target) (table : QualifiedName) (column : String) : String :=
  target.alterTableText table s!"DROP COLUMN {target.identifier column}"

def storageType (target : Target) (table : QualifiedName) (column : Column) : Attempt String :=
  if column.autoIncrement || DeclaredType.isSerial column.canonicalType then
    target.integerBase table column
  else
    .ok column.declaredType

def conversionText (target : Target) (column : Column) (type : String) : String :=
  s!" USING {target.identifier column.name}::{type}"

/-- The integer type of a column that gets its numbers from the database from now on. -/
def identityType (target : Target) (table : QualifiedName) (column : Column) : Attempt String := do
  target.require .identity (Action.columnPath table column.name) .addedIdentity
  target.integerBase table column

def columnActionText (target : Target) (table : QualifiedName) (column : Column) :
    ColumnAction → Attempt String
  | .setType convert => do
      let type ← target.storageType table column
      return s!"TYPE {type}" ++ phraseIfSome column.collation target.collateText
        ++ phrase convert (target.conversionText column type)
  | .setNotNull => .ok "SET NOT NULL"
  | .dropNotNull => .ok "DROP NOT NULL"
  | .setDefault => do
      match ← Sql.defaultClause? target.capabilities table column with
      | some text => return s!"SET DEFAULT {text}"
      | none => return "DROP DEFAULT"
  | .convertToInteger => do
      let type ← target.identityType table column
      return s!"TYPE {type}" ++ target.conversionText column type
  | .addIdentity => do
      let _ ← target.identityType table column
      return "ADD GENERATED BY DEFAULT AS IDENTITY"
  | .dropIdentity =>
      .ok (if target.options.identityColumns then "DROP IDENTITY IF EXISTS" else "DROP DEFAULT")
  | .dropExpression => .ok "DROP EXPRESSION"

def alterColumnText (target : Target) (table : Table) (column : Column) (action : ColumnAction) :
    Attempt String := do
  let text ← target.columnActionText table.qualifiedName column action
  return target.alterTableText table.qualifiedName
    s!"ALTER COLUMN {target.identifier column.name} {text}"

/-! ## Constraints -/

def dropConstraintText (target : Target) (table : QualifiedName) (name : String) : String :=
  target.alterTableText table s!"DROP CONSTRAINT IF EXISTS {target.identifier name}"

def addConstraintText (target : Target) (table : Table) (constraint : Constraint) :
    Attempt String := do
  target.requireConstraint table constraint
  return target.alterTableText table.qualifiedName s!"ADD {target.constraintText constraint}"

def replaceConstraintText (target : Target) (table : Table) (name : String)
    (constraint : Constraint) : Attempt String := do
  target.requireConstraint table constraint
  return target.dropConstraintText table.qualifiedName name
    ++ s!", ADD {target.constraintText constraint}"

/-- Drops the old primary key, if there is one, and adds the new one, if there is one. -/
def replacePrimaryKeyText (target : Target) (change : TableChange) : String :=
  let columns := change.new.primaryKeyColumns
  let dropped :=
    if change.old.primaryKeyColumns.isEmpty then []
    else [s!"DROP CONSTRAINT IF EXISTS {target.identifier change.old.primaryKeyName}"]
  let added :=
    if columns.isEmpty then []
    else [s!"ADD CONSTRAINT {target.identifier change.new.primaryKeyName}"
      ++ s!" PRIMARY KEY ({target.identifierList columns})"]
  target.alterTableText change.new.qualifiedName (Text.listed (dropped ++ added))

/-! ## Settings and comments -/

def settingText (target : Target) : TableSetting → String
  | .setLogged => "SET LOGGED"
  | .setUnlogged => "SET UNLOGGED"
  | .tablespace name => s!"SET TABLESPACE {target.identifier (name.getD defaultTablespace)}"
  | .reset keys => s!"RESET ({Text.listed keys})"
  | .set parameters => s!"SET ({parameterList parameters})"
  | .locality clause => s!"SET LOCALITY {clause.getD defaultLocality}"
  | .zone parameters => s!"CONFIGURE ZONE USING {parameterList parameters}"
where
  /-- Where tables without a tablespace are kept. -/
  defaultTablespace : String := "pg_default"
  /-- The locality of a table that has none of its own. -/
  defaultLocality : String := "REGIONAL BY TABLE"

def commentText (comment : Option String) : String :=
  (comment.map Sql.literal).getD "NULL"

def commentTableText (target : Target) (table : QualifiedName) (comment : Option String) :
    String :=
  s!"COMMENT ON TABLE {target.qualified table} IS {commentText comment}"

def commentColumnText (target : Target) (table : QualifiedName) (column : String)
    (comment : Option String) : String :=
  s!"COMMENT ON COLUMN {target.qualified table}.{target.identifier column}"
    ++ s!" IS {commentText comment}"

end Target

end SchemaDdl
