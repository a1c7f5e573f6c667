import SchemaDdl.Validation.Issue
import SchemaDdl.Validation.Tenancy

/-!
# Issues of platforms

What CockroachDB does differently, and what Nile demands of tables that belong to tenants.
-/

namespace SchemaDdl

def Column.isSequenceBacked (column : Column) : Bool :=
  column.autoIncrement
    || DeclaredType.isSerial column.canonicalType
    || match column.default with
      | some (.raw expression) => Text.contains (Text.lowered expression) "nextval("
      | _ => false

def Table.sequenceIssues (table : Table) (finding : Finding) : List Issue :=
  (table.columns.filter Column.isSequenceBacked).map fun column =>
    ⟨s!"{table.qualifiedName.text}.{column.name}", finding⟩

/-! ## CockroachDB -/

def Table.cockroachIssues (table : Table) : List Issue :=
  let location := table.qualifiedName.text
  table.sequenceIssues .rowIdNumbers
    ++ (table.platform.locality.map fun place => ⟨location, .multiRegion place⟩).toList
    ++ issueWhen (!table.platform.zoneConfig.isEmpty) location .zoneStatement

def Schema.cockroachIssues (schema : Schema) : List Issue :=
  schema.tables.flatMap Table.cockroachIssues
    ++ schema.triggers.map fun trigger => ⟨trigger.location, .triggerPreview⟩

/-! ## Nile -/

/-- The issues of a table that belongs to tenants: it has a tenant column, which is a UUID and part
of the primary key, and no column that is backed by a sequence. -/
def Table.tenantIssues (table : Table) (tenantColumn : String) : List Issue :=
  let location := table.qualifiedName.text
  (match table.column? tenantColumn with
    | none => [⟨location, .missingTenantColumn tenantColumn⟩]
    | some column =>
        issueWhen (!DeclaredType.isUuid column.canonicalType) s!"{location}.{tenantColumn}"
            (.tenantColumnType tenantColumn column.dataType)
          ++ issueWhen (!table.primaryKeyColumns.contains tenantColumn) location
            (.tenantColumnOutsideKey tenantColumn))
    ++ table.sequenceIssues .tenantColumnNumbers

/-- The issues of a shared table, which must not refer to tables of tenants. -/
def Schema.sharedTableIssues (schema : Schema) (rule : TenancyRule) (defaultSchema : String)
    (table : Table) : List Issue :=
  let location := table.qualifiedName.text
  table.sequenceIssues .sharedColumnNumbers
    ++ (table.foreignKeyTargets.filter fun target =>
      schema.tenancyOf? rule defaultSchema target == some .tenantScoped).map
        fun target => ⟨location, .sharedReferencesTenant target⟩

def Schema.nileTableIssues (schema : Schema) (rule : TenancyRule) (defaultSchema : String)
    (table : Table) : List Issue :=
  match schema.tenancyOf? rule defaultSchema table.qualifiedName with
  | some .tenantScoped => table.tenantIssues rule.tenantColumn
  | some .shared => schema.sharedTableIssues rule defaultSchema table
  | none => [⟨table.qualifiedName.text, .unclassifiedTable rule.tenantColumn⟩]

/-- The table that owns a sequence; without a schema, it is in that of the sequence. -/
def Sequence.owner? (sequence : Sequence) : Option QualifiedName :=
  sequence.owningTable?.map fun owner =>
    let owner := QualifiedName.ofText owner
    ⟨owner.schema.or sequence.name.schema, owner.name⟩

def Schema.nileSequenceIssue (schema : Schema) (rule : TenancyRule) (defaultSchema : String)
    (sequence : Sequence) : Issue :=
  let tenancy := sequence.owner?.bind (schema.tenancyOf? rule defaultSchema)
  ⟨sequence.name.text, if tenancy == some .tenantScoped then .tenantSequence else .sharedSequence⟩

def Schema.nileIssues (schema : Schema) (rule : TenancyRule) (defaultSchema : String) :
    List Issue :=
  schema.tables.flatMap (schema.nileTableIssues rule defaultSchema)
    ++ schema.sequences.map (schema.nileSequenceIssue rule defaultSchema)

end SchemaDdl
