import SchemaDdl.Capability.Set
import SchemaDdl.Validation.Code

/-!
# Findings

What validation may find out about a schema: the fact itself, how grave it is, what it concerns, and
what a reader is told about it. The advice depends on what else the dialect can express.
-/

namespace SchemaDdl

inductive Severity where
  | info
  | warning
  | error
deriving DecidableEq, Repr

def Severity.name : Severity → String
  | .info => "info"
  | .warning => "warning"
  | .error => "error"

/-- What kind of object a finding is about. -/
inductive Category where
  | dataType
  | index
  | constraint
  | feature
  | function
  | trigger
deriving DecidableEq, Repr

def Category.name : Category → String
  | .dataType => "DATA_TYPE"
  | .index => "INDEX"
  | .constraint => "CONSTRAINT"
  | .feature => "FEATURE"
  | .function => "FUNCTION"
  | .trigger => "TRIGGER"

/-- The kinds of column types that a dialect may lack. -/
inductive TypeKind where
  | uuid
  | json
  | jsonb
  | serial
  | range
  | network
  | geometry
  | enumeration
deriving DecidableEq, Repr

def TypeKind.feature : TypeKind → Feature
  | .uuid => .uuid
  | .json => .json
  | .jsonb => .jsonb
  | .serial => .serial
  | .range => .rangeTypes
  | .network => .networkTypes
  | .geometry => .geometry
  | .enumeration => .enums

def TypeKind.code : TypeKind → FindingCode
  | .uuid => .uuidType
  | .json => .jsonType
  | .jsonb => .jsonbType
  | .serial => .serialType
  | .range => .rangeType
  | .network => .networkType
  | .geometry => .geometryType
  | .enumeration => .enumType

/-- A fact about a schema that its reader should know. -/
inductive Finding where
  -- columns
  | unsupportedArray (declared : String)
  | unsupportedType (kind : TypeKind) (declared : String)
  | unknownType (declared : String)
  | generatedColumn
  | generatedWithDefault
  | virtualColumn
  | autoIncrementType (declared : String)
  | autoIncrementKey
  | uniqueRowId
  | columnComment
  -- tables
  | emptyTable
  | reservedTable (reason : Reservation)
  | duplicateColumn (name : String)
  | partitioning
  | inheritance
  | unlogged
  | tablespace
  | locality
  | zoneConfig
  | sqliteOptions
  | tableComment
  -- constraints
  | exclusionConstraint
  | constraintUnknownColumn (column : String)
  | unknownTarget (table : QualifiedName)
  | unknownTargetColumn (table : QualifiedName) (column : String)
  -- indexes
  | indexMethod (method : IndexMethod)
  | partialIndex
  | coveringIndex
  | indexOrdering (method : IndexMethod)
  | expressionIndex
  | indexUnknownColumn (column table : String)
  | indexStorage
  -- other objects
  | enumTypes
  | sequences
  | functions
  | functionLanguage (language : String)
  | triggers
  | triggerUnknownTable (table : QualifiedName)
  | triggerWithoutAction
  | policies
  | policyUnknownTable (table : QualifiedName)
  | materializedViews
  | views
  | extensions
  -- plans
  | statementTooLarge (bytes limit : Nat)
  | tooManyStatements (count limit : Nat)
  -- CockroachDB
  | rowIdNumbers
  | multiRegion (place : String)
  | zoneStatement
  | triggerPreview
  -- Nile
  | unclassifiedTable (tenantColumn : String)
  | missingTenantColumn (tenantColumn : String)
  | tenantColumnType (tenantColumn declared : String)
  | tenantColumnOutsideKey (tenantColumn : String)
  | tenantColumnNumbers
  | sharedColumnNumbers
  | sharedReferencesTenant (table : QualifiedName)
  | tenantSequence
  | sharedSequence
deriving DecidableEq, Repr

namespace Finding

def code : Finding → FindingCode
  | .unsupportedArray _ => .arrayType
  | .unsupportedType kind _ => kind.code
  | .unknownType _ => .unknownType
  | .generatedColumn => .generatedColumn
  | .generatedWithDefault => .generatedWithDefault
  | .virtualColumn => .virtualGeneratedColumn
  | .autoIncrementType _ => .autoIncrementType
  | .autoIncrementKey => .autoIncrementPrimaryKey
  | .uniqueRowId => .uniqueRowIdDefault
  | .columnComment | .tableComment => .comment
  | .emptyTable => .emptyTable
  | .reservedTable _ => .reservedObject
  | .duplicateColumn _ => .duplicateColumn
  | .partitioning => .partitioning
  | .inheritance => .inheritance
  | .unlogged => .unloggedTable
  | .tablespace => .tablespace
  | .locality => .locality
  | .zoneConfig => .zoneConfig
  | .sqliteOptions => .sqliteTableOptions
  | .exclusionConstraint => .exclusionConstraint
  | .constraintUnknownColumn _ => .constraintUnknownColumn
  | .unknownTarget _ => .foreignKeyUnknownTable
  | .unknownTargetColumn .. => .foreignKeyUnknownColumn
  | .indexMethod _ => .indexMethod
  | .partialIndex => .partialIndex
  | .coveringIndex => .coveringIndex
  | .indexOrdering _ => .indexOrdering
  | .expressionIndex => .expressionIndex
  | .indexUnknownColumn .. => .indexUnknownColumn
  | .indexStorage => .indexStorage
  | .enumTypes => .enumType
  | .sequences => .sequences
  | .functions => .functions
  | .functionLanguage _ => .functionLanguage
  | .triggers => .triggers
  | .triggerUnknownTable _ => .triggerUnknownTable
  | .triggerWithoutAction => .triggerAction
  | .policies => .policies
  | .policyUnknownTable _ => .policyUnknownTable
  | .materializedViews => .materializedView
  | .views => .view
  | .extensions => .extension
  | .statementTooLarge .. => .statementTooLarge
  | .tooManyStatements .. => .tooManyStatements
  | .rowIdNumbers => .cockroachSerial
  | .multiRegion _ => .cockroachLocality
  | .zoneStatement => .cockroachZoneConfig
  | .triggerPreview => .cockroachTriggerPreview
  | .unclassifiedTable _ => .nileUnclassifiedTable
  | .missingTenantColumn _ => .nileMissingTenantId
  | .tenantColumnType .. => .nileTenantIdType
  | .tenantColumnOutsideKey _ => .nileTenantPrimaryKey
  | .tenantColumnNumbers | .tenantSequence => .nileTenantSequence
  | .sharedColumnNumbers | .sharedSequence => .nileSharedSequence
  | .sharedReferencesTenant _ => .nileSharedReferencesTenant

/-- Errors are what the dialect cannot express or the platform refuses; the rest is allowed. -/
def severity : Finding → Severity
  | .columnComment | .tableComment | .multiRegion _ | .zoneStatement | .sharedColumnNumbers
  | .sharedSequence => .info
  | .unknownType _ | .generatedWithDefault | .virtualColumn | .unlogged | .tablespace | .locality
  | .zoneConfig | .sqliteOptions | .indexStorage | .rowIdNumbers | .triggerPreview
  | .unclassifiedTable _ => .warning
  | _ => .error

def category : Finding → Category
  | .unsupportedArray _ | .unsupportedType .. | .unknownType _ | .autoIncrementType _ | .enumTypes
  | .rowIdNumbers | .tenantColumnType .. | .tenantColumnNumbers | .sharedColumnNumbers => .dataType
  | .indexMethod _ | .partialIndex | .coveringIndex | .indexOrdering _ | .expressionIndex
  | .indexUnknownColumn .. | .indexStorage => .index
  | .autoIncrementKey | .duplicateColumn _ | .exclusionConstraint | .constraintUnknownColumn _
  | .unknownTarget _ | .unknownTargetColumn .. | .missingTenantColumn _
  | .tenantColumnOutsideKey _ | .sharedReferencesTenant _ => .constraint
  | .functions | .functionLanguage _ => .function
  | .triggers | .triggerUnknownTable _ | .triggerWithoutAction | .triggerPreview => .trigger
  | _ => .feature

def message (dialect : Dialect) : Finding → String
  | .unsupportedArray declared =>
      s!"Array type '{declared}' is not supported by {dialect.name}"
  | .unsupportedType _ declared => s!"Type '{declared}' is not supported by {dialect.name}"
  | .unknownType declared =>
      s!"Type '{declared}' is not a built-in {dialect.name} type; "
        ++ "it must exist as a domain, extension or user-defined type"
  | .generatedColumn => s!"Generated columns are not supported by {dialect.name}"
  | .generatedWithDefault => "Column is generated; its default value is ignored"
  | .virtualColumn =>
      s!"VIRTUAL generated columns are emitted as STORED for {dialect.name}"
  | .autoIncrementType declared =>
      s!"Auto-increment requires an integer type, found '{declared}'"
  | .autoIncrementKey =>
      s!"{dialect.name} AUTOINCREMENT is only allowed on an INTEGER PRIMARY KEY"
  | .uniqueRowId =>
      s!"unique_rowid() is specific to CockroachDB and unavailable on {dialect.name}"
  | .columnComment => s!"Column comments are not emitted for {dialect.name}"
  | .emptyTable => "Table has no columns"
  | .reservedTable reason => s!"Reserved by {dialect.name}: {reason.message}"
  | .duplicateColumn name => s!"Column '{name}' is declared more than once"
  | .partitioning => s!"Declarative partitioning is not supported by {dialect.name}"
  | .inheritance => s!"Table inheritance is not supported by {dialect.name}"
  | .unlogged =>
      s!"UNLOGGED is not supported by {dialect.name}; the table is created logged"
  | .tablespace =>
      s!"Tablespaces are not supported by {dialect.name}; TABLESPACE is ignored"
  | .locality => s!"LOCALITY is not supported by {dialect.name} and is ignored"
  | .zoneConfig => s!"Zone configuration is not supported by {dialect.name} and is ignored"
  | .sqliteOptions =>
      s!"STRICT and WITHOUT ROWID are SQLite options and are ignored for {dialect.name}"
  | .tableComment => s!"Table comments are not emitted for {dialect.name}"
  | .exclusionConstraint => s!"Exclusion constraints are not supported by {dialect.name}"
  | .constraintUnknownColumn column => s!"Constraint names unknown column '{column}'"
  | .unknownTarget table => s!"Foreign key references unknown table '{table.text}'"
  | .unknownTargetColumn table column =>
      s!"Foreign key references unknown column '{table.text}.{column}'"
  | .indexMethod method => s!"Index method '{method.sql}' is not supported by {dialect.name}"
  | .partialIndex => s!"Partial indexes are not supported by {dialect.name}"
  | .coveringIndex => s!"Covering (INCLUDE) indexes are not supported by {dialect.name}"
  | .indexOrdering method =>
      s!"Index method '{method.sql}' does not support ASC/DESC or NULLS ordering"
  | .expressionIndex => s!"Expression indexes are not supported by {dialect.name}"
  | .indexUnknownColumn column table => s!"Index names unknown column '{column}' of '{table}'"
  | .indexStorage =>
      s!"Index storage parameters and tablespace are ignored for {dialect.name}"
  | .enumTypes => s!"Enum types are not supported by {dialect.name}"
  | .sequences => s!"Sequences are not supported by {dialect.name}"
  | .functions => s!"Stored functions are not supported by {dialect.name}"
  | .functionLanguage language =>
      s!"Function language '{language}' is not available on {dialect.name}"
  | .triggers => s!"Triggers are not supported by {dialect.name}"
  | .triggerUnknownTable table => s!"Trigger is attached to unknown table '{table.text}'"
  | .triggerWithoutAction =>
      match dialect.family with
      | .postgres => s!"{dialect.name} triggers must EXECUTE FUNCTION; none is given"
      | .sqlite => s!"{dialect.name} triggers need an inline BEGIN ... END body; none is given"
  | .policies => s!"Row-level security policies are not supported by {dialect.name}"
  | .policyUnknownTable table => s!"Policy is attached to unknown table '{table.text}'"
  | .materializedViews => s!"Materialized views are not supported by {dialect.name}"
  | .views => s!"Views are not supported by {dialect.name}"
  | .extensions => s!"CREATE EXTENSION is not supported by {dialect.name}"
  | .statementTooLarge bytes limit =>
      s!"Statement is {bytes} bytes; {dialect.name} accepts at most {limit}"
  | .tooManyStatements count limit =>
      s!"Plan holds {count} statements; {dialect.name} accepts at most {limit} per batch"
  | .rowIdNumbers =>
      "SERIAL on CockroachDB uses unique_rowid(): values are unique but neither "
        ++ "sequential nor gap-free; prefer UUID keys with gen_random_uuid()"
  | .multiRegion place => s!"Table locality {place} requires a multi-region database"
  | .zoneStatement => "Zone configuration is applied with ALTER TABLE ... CONFIGURE ZONE"
  | .triggerPreview =>
      "Triggers are a preview feature on CockroachDB; check version support"
  | .unclassifiedTable tenantColumn =>
      s!"Table has no {tenantColumn} column and is not declared shared; "
        ++ "it is visible to every tenant"
  | .missingTenantColumn tenantColumn => s!"Tenant-scoped table has no {tenantColumn} column"
  | .tenantColumnType tenantColumn declared =>
      s!"{tenantColumn} must be uuid, found '{declared}'"
  | .tenantColumnOutsideKey tenantColumn => s!"{tenantColumn} must be part of the primary key"
  | .tenantColumnNumbers =>
      "Sequence-backed columns are not allowed in tenant-scoped tables"
  | .sharedColumnNumbers => "Sequence in a shared table is shared by all tenants"
  | .sharedReferencesTenant table =>
      s!"Shared table references tenant-scoped table '{table.text}'"
  | .tenantSequence => "Sequences cannot back tenant-scoped tables on Nile"
  | .sharedSequence => "Sequence is shared by all tenants"

def typeAlternative? (capabilities : Capabilities) : TypeKind → Option String
  | .uuid => some "Use TEXT holding the 36-character canonical form (or a 16-byte BLOB)"
  | .json => some "Use TEXT holding serialized JSON"
  | .jsonb =>
      if capabilities.supports .json then
        some "Use JSON; binary storage and jsonb operators are not available"
      else
        some "Use TEXT holding serialized JSON"
  | .serial =>
      match capabilities.family with
      | .sqlite => some "Use INTEGER PRIMARY KEY, optionally with AUTOINCREMENT"
      | .postgres => some "Use an integer column with a sequence default"
  | .range =>
      some "Use separate lower and upper bound columns with a CHECK constraint"
  | .network => some "Use TEXT and validate addresses in the application"
  | .geometry => none
  | .enumeration => some "Use TEXT with a CHECK (column IN (...)) constraint"

def alternative? (capabilities : Capabilities) : Finding → Option String
  | .unsupportedArray _ =>
      some "Store the values as a JSON array, or move them into a child table"
  | .unsupportedType kind _ => typeAlternative? capabilities kind
  | .generatedColumn => some "Compute the value in a view or in the application"
  | .autoIncrementType _ =>
      if capabilities.supports .uuid then
        some "Use a UUID column with a gen_random_uuid() default"
      else
        some "Use an INTEGER column"
  | .autoIncrementKey => some "Declare the column as the table's sole INTEGER PRIMARY KEY"
  | .uniqueRowId =>
      some "Use a UUID column with gen_random_uuid(), or an auto-increment integer"
  | .reservedTable _ => some "Rename the table or move it to another schema"
  | .partitioning =>
      some "Split the data into separate tables, or rely on indexes on the partition key"
  | .inheritance => some "Copy the parent columns into this table"
  | .exclusionConstraint =>
      if capabilities.supports .triggers then some "Enforce the rule with a trigger"
      else some "Enforce the rule in the application"
  | .indexMethod _ =>
      if capabilities.supportsIndexMethod .btree then some "Use a btree index" else none
  | .partialIndex => some "Index all rows and filter in queries"
  | .coveringIndex => some "Append the included columns to the index key"
  | .indexOrdering _ => some "Remove the ordering options, or use a btree index"
  | .expressionIndex =>
      if capabilities.supports .generatedColumns then
        some "Index a stored generated column holding the expression"
      else
        none
  | .enumTypes => some "Use TEXT with a CHECK (column IN (...)) constraint"
  | .sequences =>
      match capabilities.family with
      | .sqlite => some "Use an INTEGER PRIMARY KEY column"
      | .postgres => none
  | .functions => some "Move the logic into the application"
  | .functionLanguage _ => some "Rewrite the function in plpgsql or sql"
  | .triggers =>
      match capabilities.dialect with
      | .nile => some "Run the logic in the application or a background job"
      | _ => some "Move the logic into the application"
  | .triggerWithoutAction =>
      match capabilities.family with
      | .postgres => some "Name a trigger function"
      | .sqlite => some "Provide the trigger body statements"
  | .policies =>
      match capabilities.dialect with
      | .nile => some "Rely on Nile tenant isolation through the tenant_id column"
      | _ => some "Filter rows in the application"
  | .materializedViews =>
      if capabilities.supports .views then
        some "Use a plain view, or a table refreshed by the application"
      else
        none
  | .extensions =>
      match capabilities.dialect with
      | .nile =>
          some "Use the extensions Nile installs by default (pgvector, postgis, pg_trgm, ...)"
      | _ => none
  | .statementTooLarge .. => some "Split the change into several migrations"
  | .tooManyStatements .. => some "Split the plan into several batches"
  | .missingTenantColumn _ =>
      some "Add a NOT NULL uuid tenant column referencing tenants(id)"
  | .tenantColumnType .. => some "Declare the tenant column as uuid"
  | .tenantColumnOutsideKey _ => some "Use a composite PRIMARY KEY (tenant_id, id)"
  | .tenantColumnNumbers => some "Use a uuid column with gen_random_uuid()"
  | .sharedReferencesTenant _ =>
      some "Reference shared tables only, or make this table tenant-scoped"
  | .tenantSequence => some "Use UUID keys generated with gen_random_uuid()"
  | _ => none

end Finding

end SchemaDdl
