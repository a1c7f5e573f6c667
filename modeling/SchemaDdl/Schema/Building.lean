import SchemaDdl.Schema.Model

/-!
# Building schemas in steps

Columns, constraints, indexes and tables put together step by step. A step that means nothing for
the kind of constraint at hand leaves it as it is.
-/

namespace SchemaDdl

/-! ## Columns -/

/-- A step in the building of a column. -/
inductive ColumnStep where
  | notNull
  | nullable
  | primaryKey
  | unique
  | autoIncrement
  | generated (generation : Generation)
  | default (value : Default)
  | references (reference : Reference)
  | check (expression : String)
  | array (dimensions : Nat)
  | collation (name : String)
  | comment (text : String)

/-- The column after a step. A primary key takes no null. -/
def ColumnStep.apply (column : Column) : ColumnStep → Column
  | .notNull => { column with nullable := false }
  | .nullable => { column with nullable := true }
  | .primaryKey => { column with primaryKey := true, nullable := false }
  | .unique => { column with unique := true }
  | .autoIncrement => { column with autoIncrement := true }
  | .generated generation => { column with generated := some generation }
  | .default value => { column with default := some value }
  | .references reference => { column with references := some reference }
  | .check expression => { column with check := some expression }
  | .array dimensions => { column with arrayDimensions := dimensions }
  | .collation name => { column with collation := some name }
  | .comment text => { column with comment := some text }

def numericType (precision scale : Nat) : String :=
  s!"numeric({precision}, {scale})"

def varcharType (length : Nat) : String :=
  s!"varchar({length})"

/-! ## Constraints -/

/-- A step in the building of a constraint. -/
inductive ConstraintStep where
  | named (name : String)
  | onDelete (action : ReferentialAction)
  | onUpdate (action : ReferentialAction)
  | deferrable
  | exclude (element : ExclusionElement)
  | method (name : String)

def ConstraintStep.applyToForeignKey (key : ForeignKey) : ConstraintStep → ForeignKey
  | .onDelete action => { key with onDelete := some action }
  | .onUpdate action => { key with onUpdate := some action }
  | .deferrable => { key with deferrable := true }
  | _ => key

def ConstraintStep.applyToExclusion (exclusion : Exclusion) : ConstraintStep → Exclusion
  | .exclude element => { exclusion with elements := exclusion.elements ++ [element] }
  | .method name => { exclusion with method := name }
  | _ => exclusion

def ConstraintStep.apply (constraint : Constraint) : ConstraintStep → Constraint
  | .named name => { constraint with name := some name }
  | step =>
      match constraint.kind with
      | .foreignKey key => { constraint with kind := .foreignKey (step.applyToForeignKey key) }
      | .exclusion exclusion =>
          { constraint with kind := .exclusion (step.applyToExclusion exclusion) }
      | _ => constraint

/-! ## Indexes -/

/-- A step in the building of an index. -/
inductive IndexStep where
  | key (key : IndexKey)
  | method (method : IndexMethod)
  | unique
  | predicate (condition : String)
  | cover (column : String)
  | storage (option : StorageOption)
  | tablespace (name : String)

def IndexStep.apply (index : Index) : IndexStep → Index
  | .key added => { index with keys := index.keys ++ [added] }
  | .method chosen => { index with method := chosen }
  | .unique => { index with unique := true }
  | .predicate condition => { index with predicate := some condition }
  | .cover column => { index with covering := index.covering ++ [column] }
  | .storage option => { index with storage := index.storage ++ [option] }
  | .tablespace name => { index with tablespace := some name }

/-! ## Tables -/

/-- A step in the building of a table. -/
inductive TableStep where
  | schema (name : String)
  | column (column : Column)
  | constraint (constraint : Constraint)
  | index (index : Index)
  | inherits (parent : QualifiedName)
  | partitionBy (partitioning : Partitioning)
  | options (options : TableOptions)
  | unlogged
  | temporary
  | tablespace (name : String)
  | parameter (option : StorageOption)
  | comment (text : String)
  | locality (clause : String)
  | zoneConfig (option : StorageOption)
  | tenant (tenancy : Tenancy)

def TableStep.apply (table : Table) : TableStep → Table
  | .schema name => { table with schema := some name }
  | .column added => { table with columns := table.columns ++ [added] }
  | .constraint added => { table with constraints := table.constraints ++ [added] }
  | .index added => { table with indexes := table.indexes ++ [added] }
  | .inherits parent => { table with inherits := table.inherits ++ [parent] }
  | .partitionBy partitioning => { table with partitioning := some partitioning }
  | .options chosen => { table with options := chosen }
  | .unlogged => { table with options := { table.options with unlogged := true } }
  | .temporary => { table with options := { table.options with temporary := true } }
  | .tablespace name => { table with options := { table.options with tablespace := some name } }
  | .parameter option =>
      { table with options :=
          { table.options with parameters := table.options.parameters ++ [option] } }
  | .comment text => { table with comment := some text }
  | .locality clause => { table with platform := { table.platform with locality := some clause } }
  | .zoneConfig option =>
      { table with platform :=
          { table.platform with zoneConfig := table.platform.zoneConfig ++ [option] } }
  | .tenant tenancy => { table with platform := { table.platform with tenant := some tenancy } }

/-- The column, constraint, index or table after each of several steps, the first one included. -/
def buildStages {α β : Type} (apply : α → β → α) (start : α) : List β → List α
  | [] => [start]
  | step :: steps => start :: buildStages apply (apply start step) steps

end SchemaDdl
