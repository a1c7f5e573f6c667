/-!
# Features

The constructs that a dialect may or may not have.
-/

namespace SchemaDdl

/-- A construct that a dialect may have. -/
inductive Feature where
  | json
  | jsonb
  | arrays
  | serial
  | identity
  | sequences
  | uuid
  | enums
  | rangeTypes
  | networkTypes
  | geometry
  | generatedColumns
  | triggers
  | functions
  | rowLevelSecurity
  | views
  | materializedViews
  | partitioning
  | partialIndexes
  | coveringIndexes
  | expressionIndexes
  | concurrentIndexes
  | exclusionConstraints
  | transactionalDdl
  | dropColumn
  | alterColumnType
  | alterColumnNullability
  | alterColumnDefault
  | addConstraint
  | dropConstraint
  | renameColumn
  | locality
  | zoneConfig
  | tenantIsolation
  | extensions
  | comments
  | tablespaces
  | unloggedTables
  | inheritance
deriving DecidableEq, Repr, Inhabited

namespace Feature

def all : List Feature := [
  .json, .jsonb, .arrays, .serial, .identity, .sequences, .uuid, .enums, .rangeTypes,
  .networkTypes, .geometry, .generatedColumns, .triggers, .functions, .rowLevelSecurity, .views,
  .materializedViews, .partitioning, .partialIndexes, .coveringIndexes, .expressionIndexes,
  .concurrentIndexes, .exclusionConstraints, .transactionalDdl, .dropColumn, .alterColumnType,
  .alterColumnNullability, .alterColumnDefault, .addConstraint, .dropConstraint, .renameColumn,
  .locality, .zoneConfig, .tenantIsolation, .extensions, .comments, .tablespaces,
  .unloggedTables, .inheritance]

theorem mem_all (feature : Feature) : feature ∈ all := by
  cases feature <;> decide

/-- The name of a feature in data files. -/
def name : Feature → String
  | .json => "json"
  | .jsonb => "jsonb"
  | .arrays => "arrays"
  | .serial => "serial"
  | .identity => "identity"
  | .sequences => "sequences"
  | .uuid => "uuid"
  | .enums => "enums"
  | .rangeTypes => "range_types"
  | .networkTypes => "network_types"
  | .geometry => "geometry"
  | .generatedColumns => "generated_columns"
  | .triggers => "triggers"
  | .functions => "functions"
  | .rowLevelSecurity => "row_level_security"
  | .views => "views"
  | .materializedViews => "materialized_views"
  | .partitioning => "partitioning"
  | .partialIndexes => "partial_indexes"
  | .coveringIndexes => "covering_indexes"
  | .expressionIndexes => "expression_indexes"
  | .concurrentIndexes => "concurrent_indexes"
  | .exclusionConstraints => "exclusion_constraints"
  | .transactionalDdl => "transactional_ddl"
  | .dropColumn => "drop_column"
  | .alterColumnType => "alter_column_type"
  | .alterColumnNullability => "alter_column_nullability"
  | .alterColumnDefault => "alter_column_default"
  | .addConstraint => "add_constraint"
  | .dropConstraint => "drop_constraint"
  | .renameColumn => "rename_column"
  | .locality => "locality"
  | .zoneConfig => "zone_config"
  | .tenantIsolation => "tenant_isolation"
  | .extensions => "extensions"
  | .comments => "comments"
  | .tablespaces => "tablespaces"
  | .unloggedTables => "unlogged_tables"
  | .inheritance => "inheritance"

def ofName? (name : String) : Option Feature :=
  all.find? (·.name == name)

theorem ofName?_name (feature : Feature) : ofName? feature.name = some feature := by
  have each : ∀ feature ∈ all, ofName? feature.name = some feature := by decide +kernel
  exact each feature (mem_all feature)

end Feature

end SchemaDdl
