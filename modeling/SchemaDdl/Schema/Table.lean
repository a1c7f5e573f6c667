import SchemaDdl.Schema.Constraint
import SchemaDdl.Schema.Index

/-!
# Tables

A table with its columns, constraints and indexes, each in the order of declaration.
-/

namespace SchemaDdl

inductive PartitionStrategy where
  | range
  | list
  | hash
deriving DecidableEq, Repr

def PartitionStrategy.sql : PartitionStrategy → String
  | .range => "RANGE"
  | .list => "LIST"
  | .hash => "HASH"

/-- How the rows of a table are divided among partitions. -/
structure Partitioning where
  strategy : PartitionStrategy
  columns : List String
deriving DecidableEq, Repr

/-- How a table is stored. -/
structure TableOptions where
  temporary : Bool := false
  unlogged : Bool := false
  tablespace : Option String := none
  parameters : List StorageOption := []
  withoutRowid : Bool := false
  strict : Bool := false
deriving DecidableEq, Repr, Inhabited

/-- Whose rows a table holds on a platform with tenants. -/
inductive Tenancy where
  | tenantScoped
  | shared
deriving DecidableEq, Repr

/-- Settings that only some platforms know. -/
structure PlatformSettings where
  locality : Option String := none
  zoneConfig : List StorageOption := []
  tenant : Option Tenancy := none
deriving DecidableEq, Repr, Inhabited

/-- A table of a schema. -/
structure Table where
  name : String
  schema : Option String := none
  columns : List Column := []
  constraints : List Constraint := []
  indexes : List Index := []
  inherits : List QualifiedName := []
  partitioning : Option Partitioning := none
  options : TableOptions := {}
  comment : Option String := none
  platform : PlatformSettings := {}
deriving Repr, BEq

def TableOptions.isDefault (options : TableOptions) : Bool :=
  options == {}

def PlatformSettings.isEmpty (platform : PlatformSettings) : Bool :=
  platform == {}

namespace Table

def qualifiedName (table : Table) : QualifiedName :=
  ⟨table.schema, table.name⟩

def column? (table : Table) (name : String) : Option Column :=
  table.columns.find? (·.name == name)

def hasColumn (table : Table) (name : String) : Bool :=
  (table.column? name).isSome

def flaggedColumns (table : Table) : List String :=
  (table.columns.filter (·.primaryKey)).map (·.name)

def hasPrimaryKeyConstraint (table : Table) : Bool :=
  table.constraints.any Constraint.isPrimaryKey

/-- The primary key: that of the first constraint of the kind, else the flagged columns. -/
def primaryKeyColumns (table : Table) : List String :=
  (table.constraints.findSome? Constraint.primaryKeyColumns?).getD table.flaggedColumns

/-- Whether the primary key is declared beside the columns and not in one of them. -/
def hasTableLevelPrimaryKey (table : Table) : Bool :=
  table.hasPrimaryKeyConstraint || 1 < table.flaggedColumns.length

/-- The tables that foreign keys refer to, those of columns first, as often as they are named. -/
def foreignKeyTargets (table : Table) : List QualifiedName :=
  table.columns.filterMap (fun column => column.references.map (·.table))
    ++ table.constraints.filterMap (fun constraint => constraint.foreignKey?.map (·.table))

/-- The tables that foreign keys refer to, each once, in the order of their first naming. -/
def referencedTables (table : Table) : List QualifiedName :=
  (table.foreignKeyTargets.foldl
    (fun found name => if found.contains name then found else name :: found) []).reverse

def namedConstraints (table : Table) : List (String × Constraint) :=
  (table.constraints.filter (!·.isPrimaryKey)).map fun constraint =>
    (constraint.effectiveName table.name, constraint)

end Table

end SchemaDdl
