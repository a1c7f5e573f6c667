import SchemaDdl.Validation.Columns

/-!
# Issues of tables

The structure of a table, its options, its constraints with what they refer to, and its indexes.
-/

namespace SchemaDdl

/-! ## Structure -/

/-- The columns that come after another one of the same name, in their order. -/
def Table.repeatedColumns (table : Table) : List String :=
  go [] (table.columns.map (·.name))
where
  go (seen : List String) : List String → List String
    | [] => []
    | name :: names => if seen.contains name then name :: go seen names else go (name :: seen) names

namespace Capabilities

/-- Why the platform does not leave the name of a table to a schema. -/
def reservation? (capabilities : Capabilities) (table : QualifiedName) : Option Reservation :=
  capabilities.reserved.reservation? capabilities.defaultSchema table

def structureIssues (capabilities : Capabilities) (table : Table) : List Issue :=
  let location := table.qualifiedName.text
  issueWhen table.columns.isEmpty location .emptyTable
    ++ ((capabilities.reservation? table.qualifiedName).map fun reason =>
      ⟨location, .reservedTable reason⟩).toList
    ++ table.repeatedColumns.map fun name => ⟨s!"{location}.{name}", .duplicateColumn name⟩

/-! ## Options -/

def optionIssues (capabilities : Capabilities) (table : Table) : List Issue :=
  let location := table.qualifiedName.text
  let lacking (condition : Bool) (feature : Feature) (finding : Finding) : List Issue :=
    issueWhen (condition && !capabilities.supports feature) location finding
  lacking table.partitioning.isSome .partitioning .partitioning
    ++ lacking (!table.inherits.isEmpty) .inheritance .inheritance
    ++ lacking table.options.unlogged .unloggedTables .unlogged
    ++ lacking table.options.tablespace.isSome .tablespaces .tablespace
    ++ lacking table.platform.locality.isSome .locality .locality
    ++ lacking (!table.platform.zoneConfig.isEmpty) .zoneConfig .zoneConfig
    ++ issueWhen
      ((table.options.strict || table.options.withoutRowid) && capabilities.family != .sqlite)
      location .sqliteOptions
    ++ lacking table.comment.isSome .comments .tableComment

/-! ## Constraints -/

/-- The issues of a reference. A table of the platform is no part of the schema and may be referred
to. -/
def targetIssues (capabilities : Capabilities) (schema : Schema) (location : String)
    (target : QualifiedName) (columns : List String) : List Issue :=
  match schema.table? target with
  | some table =>
      (columns.filter (!table.hasColumn ·)).map fun column =>
        ⟨location, .unknownTargetColumn target column⟩
  | none =>
      issueWhen (capabilities.reservation? target).isNone location (.unknownTarget target)

/-- The columns that a constraint names and its table lacks. The elements of an exclusion are
expressions, and are not looked up. -/
def unknownColumns (table : Table) (constraint : Constraint) : List String :=
  match constraint.kind with
  | .exclusion _ => []
  | _ => constraint.columns.filter (!table.hasColumn ·)

def constraintIssues (capabilities : Capabilities) (schema : Schema) (table : Table)
    (constraint : Constraint) : List Issue :=
  let location := s!"{table.qualifiedName.text}.{constraint.effectiveName table.name}"
  let isExclusion := match constraint.kind with
    | .exclusion _ => true
    | _ => false
  issueWhen (isExclusion && !capabilities.supports .exclusionConstraints) location
      .exclusionConstraint
    ++ (unknownColumns table constraint).map (fun column =>
      ⟨location, .constraintUnknownColumn column⟩)
    ++ match constraint.foreignKey? with
      | some key => capabilities.targetIssues schema location key.table key.referencedColumns
      | none => []

def referenceIssues (capabilities : Capabilities) (schema : Schema) (table : Table)
    (column : Column) : List Issue :=
  match column.references with
  | some reference =>
      capabilities.targetIssues schema s!"{table.qualifiedName.text}.{column.name}"
        reference.table [reference.column]
  | none => []

/-! ## Indexes -/

def indexIssues (capabilities : Capabilities) (table : Table) (index : Index) : List Issue :=
  let location := index.qualifiedName.text
  let ignored :=
    (!index.storage.isEmpty && capabilities.family = .sqlite)
      || (index.tablespace.isSome && !capabilities.supports .tablespaces)
  issueWhen (!capabilities.supportsIndexMethod index.method) location
      (.indexMethod index.method)
    ++ issueWhen (index.predicate.isSome && !capabilities.supports .partialIndexes) location
      .partialIndex
    ++ issueWhen (!index.covering.isEmpty && !capabilities.supports .coveringIndexes) location
      .coveringIndex
    ++ issueWhen (!index.method.isOrdered && index.keys.any (·.hasOrdering)) location
      (.indexOrdering index.method)
    ++ issueWhen (index.hasExpressions && !capabilities.supports .expressionIndexes) location
      .expressionIndex
    ++ ((index.keyColumns ++ index.covering).filter (!table.hasColumn ·)).map (fun column =>
      ⟨location, .indexUnknownColumn column table.name⟩)
    ++ issueWhen ignored location .indexStorage

/-! ## The whole table -/

def tableIssues (capabilities : Capabilities) (schema : Schema) (table : Table) : List Issue :=
  capabilities.structureIssues table
    ++ table.columns.flatMap (capabilities.columnIssues schema table)
    ++ capabilities.optionIssues table
    ++ table.constraints.flatMap (capabilities.constraintIssues schema table)
    ++ table.columns.flatMap (capabilities.referenceIssues schema table)
    ++ table.indexes.flatMap (capabilities.indexIssues table)

end Capabilities

end SchemaDdl
