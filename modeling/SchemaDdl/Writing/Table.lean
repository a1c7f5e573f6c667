import SchemaDdl.Writing.Column

/-!
# Table definitions

A table definition is a list of lines, one for each column, for a primary key over several flagged
columns, and for each constraint. Every defect of its lines is found before it fails.
-/

namespace SchemaDdl

/-- A line between the parentheses of a table definition. -/
inductive TableLine where
  | column (definition : ColumnDefinition)
  /-- A primary key over the flagged columns. -/
  | primaryKey (columns : List String)
  | constraint (constraint : Constraint)
deriving DecidableEq, Repr

/-- The defects among some attempts, and the values of the others, both in order. -/
def Attempt.partition {α : Type} : List (Attempt α) → List Defect × List α
  | [] => ([], [])
  | attempt :: attempts =>
      let (defects, values) := Attempt.partition attempts
      match attempt with
      | .ok value => (defects, value :: values)
      | .error defect => (defect :: defects, values)

namespace Target

/-! ## Constraints -/

def requireConstraint (target : Target) (table : Table) (constraint : Constraint) :
    Attempt Unit :=
  match constraint.kind with
  | .exclusion _ =>
      target.require .exclusionConstraints
        s!"{table.qualifiedName.text}.{constraint.effectiveName table.name}" .exclusionConstraints
  | _ => .ok ()

def foreignKeyText (target : Target) (key : ForeignKey) : String :=
  s!"FOREIGN KEY ({target.identifierList key.columns}) REFERENCES "
    ++ s!"{target.qualified key.table} ({target.identifierList key.referencedColumns})"
    ++ referentialActions key.onDelete key.onUpdate
    ++ phrase key.deferrable " DEFERRABLE INITIALLY DEFERRED"

def exclusionText (exclusion : Exclusion) : String :=
  let elements := exclusion.elements.map fun element =>
    s!"{element.expression} WITH {element.operator}"
  s!"EXCLUDE USING {exclusion.method} ({Text.listed elements})"
    ++ phraseIfSome exclusion.predicate fun predicate => s!" WHERE ({predicate})"

def constraintKindText (target : Target) : ConstraintKind → String
  | .primaryKey columns => s!"PRIMARY KEY ({target.identifierList columns})"
  | .unique columns => s!"UNIQUE ({target.identifierList columns})"
  | .check expression => s!"CHECK ({expression})"
  | .foreignKey key => target.foreignKeyText key
  | .exclusion exclusion => exclusionText exclusion

def constraintText (target : Target) (constraint : Constraint) : String :=
  phraseIfSome constraint.name (fun name => s!"CONSTRAINT {target.identifier name} ")
    ++ target.constraintKindText constraint.kind

/-! ## Lines -/

def columnLine (target : Target) (table : Table) (column : Column) : Attempt TableLine :=
  (target.columnDefinition table column).map .column

/-- The line of a key over several flagged columns, unless a constraint states the key. -/
def flaggedKeyLines (table : Table) : List TableLine :=
  if 1 < table.flaggedColumns.length && !table.hasPrimaryKeyConstraint then
    [.primaryKey table.flaggedColumns]
  else
    []

def constraintLine (target : Target) (table : Table) (constraint : Constraint) :
    Attempt TableLine :=
  (target.requireConstraint table constraint).map fun _ => .constraint constraint

/-- The lines of a table, each of which may have a defect. -/
def tableLines (target : Target) (table : Table) : List (Attempt TableLine) :=
  table.columns.map (target.columnLine table)
    ++ (flaggedKeyLines table).map Except.ok
    ++ table.constraints.map (target.constraintLine table)

def lineText (target : Target) : TableLine → String
  | .column definition => target.definitionText definition
  | .primaryKey columns => s!"PRIMARY KEY ({target.identifierList columns})"
  | .constraint constraint => target.constraintText constraint

/-! ## The text around the lines -/

def createTableVerb (target : Target) (table : Table) : String :=
  if table.options.temporary then "CREATE TEMPORARY TABLE "
  else if table.options.unlogged && target.family = .postgres && target.supports .unloggedTables
  then "CREATE UNLOGGED TABLE "
  else "CREATE TABLE "

def partitionKey (target : Target) (table : Table) (key : String) : String :=
  if table.hasColumn key then target.identifier key else s!"({key})"

def inheritsText (target : Target) (table : Table) : Attempt String :=
  if table.inherits.isEmpty then
    .ok ""
  else do
    target.require .inheritance table.qualifiedName.text .inheritance
    return s!" INHERITS ({Text.listed (table.inherits.map target.qualified)})"

def partitionText (target : Target) (table : Table) : Attempt String :=
  match table.partitioning with
  | none => .ok ""
  | some partitioning => do
      target.require .partitioning table.qualifiedName.text .partitioning
      let keys := partitioning.columns.map (target.partitionKey table)
      return s!" PARTITION BY {partitioning.strategy.sql} ({Text.listed keys})"

def tablespaceText (target : Target) (tablespace : Option String) : String :=
  if target.supports .tablespaces then
    phraseIfSome tablespace fun name => s!" TABLESPACE {target.identifier name}"
  else
    ""

def parametersText (parameters : List StorageOption) : String :=
  phrase (!parameters.isEmpty) s!" WITH ({parameterList parameters})"

def localityText (target : Target) (table : Table) : String :=
  if target.supports .locality then
    phraseIfSome table.platform.locality fun clause => s!" LOCALITY {clause}"
  else
    ""

def postgresTableEnd (target : Target) (table : Table) : Attempt String := do
  let inherits ← target.inheritsText table
  let partitioning ← target.partitionText table
  return inherits ++ partitioning ++ parametersText table.options.parameters
    ++ target.tablespaceText table.options.tablespace ++ target.localityText table

def sqliteTableEnd (target : Target) (table : Table) : Attempt String :=
  if table.partitioning.isSome then
    target.unsupported table.qualifiedName.text .partitioning
  else if !table.inherits.isEmpty then
    target.unsupported table.qualifiedName.text .inheritance
  else
    let words := (if table.options.strict then ["STRICT"] else [])
      ++ (if table.options.withoutRowid then ["WITHOUT ROWID"] else [])
    .ok (phrase (!words.isEmpty) (" " ++ Text.listed words))

/-- What follows the closing parenthesis of a table definition. -/
def tableEnd (target : Target) (table : Table) : Attempt String :=
  match target.family with
  | .postgres => target.postgresTableEnd table
  | .sqlite => target.sqliteTableEnd table

/-- The text of a table definition with given lines and end. -/
def tableText (target : Target) (table : Table) (lines : List TableLine) (ending : String) :
    String :=
  target.createTableVerb table ++ target.ifNotExists ++ target.qualified table.qualifiedName
    ++ " (\n" ++ Text.join ",\n" (lines.map fun line => "    " ++ target.lineText line)
    ++ "\n)" ++ ending

/-- The statement text that creates a table. -/
def createTableText (target : Target) (table : Table) : Outcome String :=
  if table.columns.isEmpty then
    .error (.one (.emptyTable table.qualifiedName))
  else
    let (defects, lines) := Attempt.partition (target.tableLines table)
    let (endDefects, endings) := Attempt.partition [target.tableEnd table]
    match Failure.ofDefects? (defects ++ endDefects) with
    | some failure => .error failure
    | none => .ok (target.tableText table lines (String.join endings))

end Target

end SchemaDdl
