import SchemaDdl.Schema.Model
import SchemaDdl.Validation.Issue

/-!
# Issues of columns

Whether a dialect has the type of a column, and what else the column asks for.
-/

namespace SchemaDdl

/-! ## Types -/

/-- The kind of type that needs a feature, if the type of a column is of one. -/
def Schema.typeKind? (schema : Schema) (column : Column) : Option TypeKind :=
  let canonical := column.canonicalType
  if DeclaredType.isUuid canonical then some .uuid
  else if canonical == "json" then some .json
  else if canonical == "jsonb" then some .jsonb
  else if DeclaredType.isSerial canonical then some .serial
  else if DeclaredType.isRange canonical then some .range
  else if DeclaredType.isNetwork canonical then some .network
  else if DeclaredType.isGeometry canonical then some .geometry
  else if schema.hasEnum column.baseType then some .enumeration
  else none

namespace Capabilities

def typeIssues (capabilities : Capabilities) (schema : Schema) (location : String)
    (column : Column) : List Issue :=
  let canonical := column.canonicalType
  if capabilities.isAlwaysSupported canonical then
    []
  else
    match schema.typeKind? column with
    | some kind =>
        issueWhen (!capabilities.supports kind.feature) location
          (.unsupportedType kind column.dataType)
    | none =>
        issueWhen
          (!capabilities.isKnownType canonical && !capabilities.acceptsUnknownTypes) location
          (.unknownType column.dataType)

/-! ## Features -/

def generationIssues (capabilities : Capabilities) (location : String) (column : Column) :
    List Issue :=
  match column.generated with
  | none => []
  | some generation =>
      issueWhen (!capabilities.supports .generatedColumns) location .generatedColumn
        ++ issueWhen column.default.isSome location .generatedWithDefault
        ++ issueWhen (!generation.stored && capabilities.family = .postgres) location
          .virtualColumn

/-- The issue of a column that is numbered automatically. SQLite numbers only the sole column of a
primary key. -/
def numberingIssues (capabilities : Capabilities) (table : Table) (location : String)
    (column : Column) : List Issue :=
  if !column.autoIncrement then
    []
  else if !DeclaredType.isInteger column.canonicalType then
    [⟨location, .autoIncrementType column.dataType⟩]
  else
    issueWhen
      (capabilities.family = .sqlite && (!column.primaryKey || table.hasTableLevelPrimaryKey))
      location .autoIncrementKey

def columnIssues (capabilities : Capabilities) (schema : Schema) (table : Table)
    (column : Column) : List Issue :=
  let location := s!"{table.qualifiedName.text}.{column.name}"
  issueWhen (column.isArray && !capabilities.supports .arrays) location
      (.unsupportedArray column.declaredType)
    ++ capabilities.typeIssues schema location column
    ++ capabilities.generationIssues location column
    ++ capabilities.numberingIssues table location column
    ++ issueWhen
      (column.default == some (.sentinel .uniqueRowId)
        && capabilities.dialect != .cockroachDb) location .uniqueRowId
    ++ issueWhen (column.comment.isSome && !capabilities.supports .comments) location
      .columnComment

end Capabilities

end SchemaDdl
