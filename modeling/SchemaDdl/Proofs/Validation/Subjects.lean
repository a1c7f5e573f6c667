import SchemaDdl.Validation.Validate

/-!
# Subjects of findings

Each part of validation has its own subjects: what is found about a column is never found about an
index, and only the rules of a platform find what the platform objects to. So a finding is looked
for in the part that has its subject, and in no other.
-/

namespace SchemaDdl

inductive Subject where
  | column
  | table
  | constraint
  | target
  | index
  | object
  | plan
  | cockroachDb
  | tenancy
  | sequence
deriving DecidableEq, Repr

@[simp] def Finding.subject : Finding → Subject
  | .unsupportedArray _ | .unsupportedType .. | .unknownType _ | .generatedColumn
  | .generatedWithDefault | .virtualColumn | .autoIncrementType _ | .autoIncrementKey
  | .uniqueRowId | .columnComment => .column
  | .emptyTable | .reservedTable _ | .duplicateColumn _ | .partitioning | .inheritance | .unlogged
  | .tablespace | .locality | .zoneConfig | .sqliteOptions | .tableComment => .table
  | .exclusionConstraint | .constraintUnknownColumn _ => .constraint
  | .unknownTarget _ | .unknownTargetColumn .. => .target
  | .indexMethod _ | .partialIndex | .coveringIndex | .indexOrdering _ | .expressionIndex
  | .indexUnknownColumn .. | .indexStorage => .index
  | .enumTypes | .sequences | .functions | .functionLanguage _ | .triggers | .triggerUnknownTable _
  | .triggerWithoutAction | .policies | .policyUnknownTable _ | .materializedViews | .views
  | .extensions => .object
  | .statementTooLarge .. | .tooManyStatements .. => .plan
  | .rowIdNumbers | .multiRegion _ | .zoneStatement | .triggerPreview => .cockroachDb
  | .unclassifiedTable _ | .missingTenantColumn _ | .tenantColumnType .. | .tenantColumnOutsideKey _
  | .sharedReferencesTenant _ => .tenancy
  | .tenantColumnNumbers | .sharedColumnNumbers | .tenantSequence | .sharedSequence => .sequence

def Concern (subjects : List Subject) (issues : List Issue) : Prop :=
  ∀ issue ∈ issues, issue.finding.subject ∈ subjects

section

variable {subjects : List Subject} {first second : List Issue} {issue : Issue}

theorem Concern.mono {wider : List Subject} (concern : Concern subjects first)
    (subset : subjects ⊆ wider) : Concern wider first :=
  fun issue member => subset (concern issue member)

@[simp] theorem concern_nil : Concern subjects [] :=
  List.forall_mem_nil _

@[simp] theorem concern_cons :
    Concern subjects (issue :: first) ↔ issue.finding.subject ∈ subjects ∧ Concern subjects first :=
  List.forall_mem_cons

@[simp] theorem concern_append :
    Concern subjects (first ++ second) ↔ Concern subjects first ∧ Concern subjects second :=
  List.forall_mem_append

@[simp] theorem concern_flatMap {α : Type} {items : List α} {issues : α → List Issue} :
    Concern subjects (items.flatMap issues) ↔ ∀ item ∈ items, Concern subjects (issues item) :=
  List.forall_mem_flatMap

@[simp] theorem concern_map {α : Type} {items : List α} {issueOf : α → Issue} :
    Concern subjects (items.map issueOf) ↔
      ∀ item ∈ items, (issueOf item).finding.subject ∈ subjects :=
  List.forall_mem_map

@[simp] theorem concern_toList {found : Option Issue} :
    Concern subjects found.toList ↔
      ∀ issue, found = some issue → issue.finding.subject ∈ subjects := by
  simp [Concern]

@[simp] theorem concern_issueWhen {condition : Bool} {location : String} {finding : Finding} :
    Concern subjects (issueWhen condition location finding) ↔
      (condition = true → finding.subject ∈ subjects) := by
  cases condition <;> simp [issueWhen]

@[simp] theorem concern_ite {condition : Prop} [Decidable condition] :
    Concern subjects (if condition then first else second) ↔
      (condition → Concern subjects first) ∧ (¬condition → Concern subjects second) := by
  split <;> simp [*]

end

/-! ## The parts of validation -/

namespace Capabilities

variable {capabilities : Capabilities} {schema : Schema} {table : Table}

theorem concern_columnIssues {column : Column} :
    Concern [.column] (capabilities.columnIssues schema table column) := by
  have types : ∀ location, Concern [.column] (capabilities.typeIssues schema location column) := by
    intro location
    unfold typeIssues
    cases schema.typeKind? column <;> simp
  have generation : ∀ location,
      Concern [.column] (capabilities.generationIssues location column) := by
    intro location
    unfold generationIssues
    cases column.generated <;> simp
  simp [columnIssues, types, generation, numberingIssues]

theorem concern_structureIssues : Concern [.table] (capabilities.structureIssues table) := by
  simp [structureIssues]

theorem concern_optionIssues : Concern [.table] (capabilities.optionIssues table) := by
  simp [optionIssues]

theorem concern_targetIssues {location : String} {target : QualifiedName} {columns : List String} :
    Concern [.target] (capabilities.targetIssues schema location target columns) := by
  unfold targetIssues
  cases schema.table? target <;> simp

theorem concern_constraintIssues {constraint : Constraint} :
    Concern [.constraint, .target] (capabilities.constraintIssues schema table constraint) := by
  have targets : ∀ location target columns, Concern [.constraint, .target]
      (capabilities.targetIssues schema location target columns) :=
    fun _ _ _ => concern_targetIssues.mono (by decide)
  unfold constraintIssues
  cases constraint.foreignKey? <;> simp [targets]

theorem concern_referenceIssues {column : Column} :
    Concern [.target] (capabilities.referenceIssues schema table column) := by
  unfold referenceIssues
  cases column.references <;> simp [concern_targetIssues]

theorem concern_indexIssues {index : Index} :
    Concern [.index] (capabilities.indexIssues table index) := by
  simp [indexIssues]

theorem concern_tableIssues :
    Concern [.column, .table, .constraint, .target, .index]
      (capabilities.tableIssues schema table) := by
  simp only [tableIssues, concern_append, concern_flatMap]
  exact ⟨⟨⟨⟨⟨concern_structureIssues.mono (by decide),
    fun _ _ => concern_columnIssues.mono (by decide)⟩, concern_optionIssues.mono (by decide)⟩,
    fun _ _ => concern_constraintIssues.mono (by decide)⟩,
    fun _ _ => concern_referenceIssues.mono (by decide)⟩,
    fun _ _ => concern_indexIssues.mono (by decide)⟩

theorem concern_objectIssues : Concern [.object] (capabilities.objectIssues schema) := by
  simp [objectIssues, enumIssues, sequenceIssues, functionIssues, triggerIssues, policyIssues,
    viewIssues, extensionIssues]

end Capabilities

/-! ## Platforms -/

theorem concern_cockroachIssues {schema : Schema} :
    Concern [.cockroachDb] schema.cockroachIssues := by
  simp [Schema.cockroachIssues, Table.cockroachIssues, Table.sequenceIssues]

theorem Schema.subject_nileSequenceIssue {schema : Schema} {rule : TenancyRule}
    {defaultSchema : String} (sequence : Sequence) :
    (schema.nileSequenceIssue rule defaultSchema sequence).finding.subject = .sequence := by
  unfold nileSequenceIssue
  dsimp only
  split <;> rfl

theorem concern_nileIssues {schema : Schema} {rule : TenancyRule} {defaultSchema : String} :
    Concern [.tenancy, .sequence] (schema.nileIssues rule defaultSchema) := by
  have tenants : ∀ (table : Table) (column : String),
      Concern [.tenancy, .sequence] (table.tenantIssues column) := by
    intro table column
    unfold Table.tenantIssues
    cases table.column? column <;> simp [Table.sequenceIssues]
  have tables : ∀ table,
      Concern [.tenancy, .sequence] (schema.nileTableIssues rule defaultSchema table) := by
    intro table
    unfold Schema.nileTableIssues
    split <;> simp [tenants, Schema.sharedTableIssues, Table.sequenceIssues]
  refine concern_append.mpr ⟨concern_flatMap.mpr fun table _ => tables table,
    concern_map.mpr fun sequence _ => ?_⟩
  rw [Schema.subject_nileSequenceIssue]
  decide

theorem Capabilities.concern_platformIssues {capabilities : Capabilities} {rule : TenancyRule}
    {schema : Schema} :
    Concern [.cockroachDb, .tenancy, .sequence] (capabilities.platformIssues rule schema) := by
  unfold platformIssues
  split
  · exact concern_cockroachIssues.mono (by decide)
  · exact concern_nileIssues.mono (by decide)
  all_goals exact concern_nil

end SchemaDdl
