import SchemaDdl.Capability.Set

/-!
# Built-in capability sets

One set for each dialect. A platform starts from the set of its family and states what differs.
-/

namespace SchemaDdl.Capabilities

/-- PostgreSQL. -/
def postgres : Capabilities where
  dialect := .postgres
  defaultSchema := "public"
  features := [
    .json, .jsonb, .arrays, .serial, .identity, .sequences, .uuid, .enums, .rangeTypes,
    .networkTypes, .geometry, .generatedColumns, .triggers, .functions, .rowLevelSecurity, .views,
    .materializedViews, .partitioning, .partialIndexes, .coveringIndexes, .expressionIndexes,
    .concurrentIndexes, .exclusionConstraints, .transactionalDdl, .dropColumn, .alterColumnType,
    .alterColumnNullability, .alterColumnDefault, .addConstraint, .dropConstraint, .renameColumn,
    .extensions, .comments, .tablespaces, .unloggedTables, .inheritance]
  indexMethods := [.btree, .hash, .gin, .gist, .brin, .spgist]
  alwaysSupportedTypes := [
    "smallint", "integer", "bigint", "numeric", "real", "double precision", "text", "varchar",
    "char", "boolean", "date", "time", "timetz", "timestamp", "timestamptz", "interval", "bytea"]
  knownTypes := ["money", "bit", "varbit", "xml", "tsvector", "tsquery", "citext", "oid", "name"]
  acceptsUnknownTypes := false
  reserved := {
    schemas := ["pg_catalog", "information_schema", "pg_toast"]
    tableBeginnings := ["pg_"] }
  languages := ["sql", "plpgsql"]
  limits := {}

def cockroachDb : Capabilities :=
  { postgres.overrideAll [
      (.locality, true), (.zoneConfig, true), (.rangeTypes, false), (.exclusionConstraints, false),
      (.rowLevelSecurity, false), (.partitioning, false), (.inheritance, false),
      (.extensions, false), (.tablespaces, false), (.unloggedTables, false)] with
    dialect := .cockroachDb
    indexMethods := [.btree, .gin, .gist]
    reserved := {
      schemas := ["pg_catalog", "information_schema", "crdb_internal", "pg_extension"]
      tableBeginnings := ["crdb_internal"] } }

/-- Nile: tables are isolated by tenant, and nothing runs inside the database. -/
def nile : Capabilities :=
  { postgres.overrideAll [
      (.tenantIsolation, true), (.triggers, false), (.functions, false),
      (.rowLevelSecurity, false), (.extensions, false), (.materializedViews, false),
      (.partitioning, false), (.inheritance, false), (.exclusionConstraints, false),
      (.tablespaces, false), (.unloggedTables, false)] with
    dialect := .nile
    reserved := {
      schemas := ["pg_catalog", "information_schema", "users", "auth", "nile"]
      tables := ["tenants", "tenant_users"]
      tableBeginnings := ["pg_", "nile_"] }
    languages := [] }

/-- SQLite. -/
def sqlite : Capabilities where
  dialect := .sqlite
  defaultSchema := "main"
  features := [
    .json, .generatedColumns, .triggers, .views, .partialIndexes, .expressionIndexes,
    .transactionalDdl, .renameColumn]
  indexMethods := [.btree]
  alwaysSupportedTypes := ["integer", "text", "blob", "real", "numeric"]
  knownTypes := [
    "smallint", "bigint", "tinyint", "mediumint", "varchar", "char", "boolean", "double precision",
    "date", "timestamp", "datetime"]
  acceptsUnknownTypes := true
  reserved := {
    schemas := ["temp"]
    tableBeginnings := ["sqlite_"] }
  languages := []
  limits := { maxStatementBytes := some 1000000 }

/-- Cloudflare D1: SQLite without transactions and with smaller batches. -/
def d1 : Capabilities :=
  { sqlite.override .transactionalDdl false with
    dialect := .d1
    reserved := {
      schemas := ["temp"]
      tables := ["d1_migrations"]
      tableBeginnings := ["sqlite_", "_cf_"] }
    limits := { maxStatementBytes := some 100000, maxStatements := some 1000 } }

/-- The built-in set of a dialect. -/
def builtIn : Dialect → Capabilities
  | .postgres => postgres
  | .cockroachDb => cockroachDb
  | .nile => nile
  | .sqlite => sqlite
  | .d1 => d1

theorem dialect_builtIn (dialect : Dialect) : (builtIn dialect).dialect = dialect := by
  cases dialect <;> rfl

theorem family_builtIn (dialect : Dialect) : (builtIn dialect).family = dialect.family := by
  cases dialect <;> rfl

end SchemaDdl.Capabilities
