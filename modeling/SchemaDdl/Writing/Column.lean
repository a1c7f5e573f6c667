import SchemaDdl.Sql.DefaultClause
import SchemaDdl.Writing.Target

/-!
# Column definitions

A column definition is a name, a type and a list of clauses; the clauses are chosen first and put
into words after that.
-/

namespace SchemaDdl

/-- A clause after the type of a column. -/
inductive ColumnClause where
  | identity
  | generated (generation : Generation)
  /-- A key that numbers its rows by itself carries a word of its own on SQLite. -/
  | primaryKey (automatic : Bool)
  | notNull
  | unique
  | default (text : String)
  | references (reference : Reference)
  | check (expression : String)
  | collate (collation : String)
deriving DecidableEq, Repr

/-- A column definition before it is put into words. -/
structure ColumnDefinition where
  name : String
  type : String
  clauses : List ColumnClause
deriving DecidableEq, Repr

namespace Target

/-! ## Types -/

def usesIdentity (target : Target) (column : Column) : Bool :=
  column.autoIncrement && target.options.identityColumns && target.supports .identity

/-- The integer type of a column whose values are numbered, with serial types resolved. -/
def integerBase (target : Target) (table : QualifiedName) (column : Column) : Attempt String :=
  let canonical := column.canonicalType
  let base := (DeclaredType.serialBase? canonical).getD canonical
  if ["smallint", "integer", "bigint"].contains base then
    .ok base
  else
    .error (.invalidAutoIncrement table column.name column.dataType target.dialect)

def postgresType (target : Target) (table : Table) (column : Column) : Attempt String :=
  if !column.autoIncrement then
    .ok column.declaredType
  else do
    let base ← target.integerBase table.qualifiedName column
    if target.usesIdentity column then return base
    else return (DeclaredType.serialFor? base).getD "SERIAL"

/-- Whether SQLite has no storage class for the values of a column, so that they are kept as
text. -/
def isKeptAsText (column : Column) : Bool :=
  let canonical := column.canonicalType
  column.isArray || DeclaredType.isUuid canonical || DeclaredType.isJson canonical
    || DeclaredType.isRange canonical || DeclaredType.isNetwork canonical
    || DeclaredType.isGeometry canonical

def strictType (column : Column) : String :=
  let canonical := column.canonicalType
  if isKeptAsText column then "TEXT"
  else if canonical == "boolean" then "INTEGER"
  else if ["date", "time", "timetz", "timestamp", "timestamptz", "datetime",
      "interval"].contains canonical then "TEXT"
  else
    match column.affinity with
    | .integer => "INTEGER"
    | .text => "TEXT"
    | .blob => "BLOB"
    | .real => "REAL"
    | .numeric => "ANY"

/-- The type of a column on SQLite. Only an integer that is the whole primary key is numbered. -/
def sqliteType (target : Target) (table : Table) (column : Column) : Attempt String :=
  if column.autoIncrement then
    if column.primaryKey && !table.hasTableLevelPrimaryKey
        && DeclaredType.isInteger column.canonicalType then
      .ok "INTEGER"
    else
      .error (.invalidAutoIncrement table.qualifiedName column.name column.dataType target.dialect)
  else if table.options.strict then .ok (strictType column)
  else if isKeptAsText column then .ok "TEXT"
  else if DeclaredType.isSerial column.canonicalType then .ok "INTEGER"
  else .ok column.dataType

def columnType (target : Target) (table : Table) (column : Column) : Attempt String :=
  match target.family with
  | .postgres => target.postgresType table column
  | .sqlite => target.sqliteType table column

/-! ## Clauses -/

/-- The clauses about the key, about nulls and about repeated values. A column that is the whole key
needs no more than to say so. -/
def keyClauses (table : Table) (column : Column) : List ColumnClause :=
  if column.primaryKey && !table.hasTableLevelPrimaryKey then
    [.primaryKey column.autoIncrement]
  else
    (if column.nullable then [] else [.notNull]) ++ (if column.unique then [.unique] else [])

/-- The clauses of a column with a given default clause, in the order in which they are written. -/
def columnClauses (target : Target) (table : Table) (column : Column) (default : Option String) :
    List ColumnClause :=
  (if target.family = .postgres && target.usesIdentity column then [.identity] else [])
    ++ (column.generated.map .generated).toList
    ++ keyClauses table column
    ++ (default.map .default).toList
    ++ (column.references.map .references).toList
    ++ (column.check.map .check).toList
    ++ (column.collation.map .collate).toList

/-- The definition of a column of a table. -/
def columnDefinition (target : Target) (table : Table) (column : Column) :
    Attempt ColumnDefinition := do
  let type ← target.columnType table column
  let default ← Sql.defaultClause? target.capabilities table.qualifiedName column
  return ⟨column.name, type, target.columnClauses table column default⟩

/-! ## Words -/

def referentialActions (onDelete onUpdate : Option ReferentialAction) : String :=
  phraseIfSome onDelete (" ON DELETE " ++ ·.sql) ++ phraseIfSome onUpdate (" ON UPDATE " ++ ·.sql)

def referencesText (target : Target) (reference : Reference) : String :=
  s!" REFERENCES {target.qualified reference.table} ({target.identifier reference.column})"
    ++ referentialActions reference.onDelete reference.onUpdate

/-- The storage word of a computed column. The Postgres family only has columns that are stored. -/
def generatedText (target : Target) (generation : Generation) : String :=
  let storage := if generation.stored || target.family = .postgres then "STORED" else "VIRTUAL"
  s!" GENERATED ALWAYS AS ({generation.expression}) {storage}"

/-- The name of a collation is always quoted on the Postgres family, and never on SQLite. -/
def collateText (target : Target) (collation : String) : String :=
  match target.family with
  | .postgres => " COLLATE " ++ String.ofList (Sql.enclose '"' collation.toList)
  | .sqlite => " COLLATE " ++ collation

def clauseText (target : Target) : ColumnClause → String
  | .identity => " GENERATED BY DEFAULT AS IDENTITY"
  | .generated generation => target.generatedText generation
  | .primaryKey automatic =>
      " PRIMARY KEY" ++ phrase (automatic && target.family = .sqlite) " AUTOINCREMENT"
  | .notNull => " NOT NULL"
  | .unique => " UNIQUE"
  | .default text => " DEFAULT " ++ text
  | .references reference => target.referencesText reference
  | .check expression => s!" CHECK ({expression})"
  | .collate collation => target.collateText collation

def definitionText (target : Target) (definition : ColumnDefinition) : String :=
  s!"{target.identifier definition.name} {definition.type}"
    ++ String.join (definition.clauses.map target.clauseText)

/-- The written definition of a column of a table. -/
def columnText (target : Target) (table : Table) (column : Column) : Attempt String := do
  let definition ← target.columnDefinition table column
  return target.definitionText definition

end Target

end SchemaDdl
