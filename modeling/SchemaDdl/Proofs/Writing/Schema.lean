import SchemaDdl.Proofs.Plan.Dependency
import SchemaDdl.Proofs.Plan.Statements
import SchemaDdl.Proofs.Writing.Index
import SchemaDdl.Proofs.Writing.Objects

/-!
# When a schema can be written

A schema can be written when each of its parts can; nothing is asked of their combination.
-/

namespace SchemaDdl.Target

variable {target : Target}

theorem succeeds_statement {action : Action} :
    Succeeds (target.statement action) ↔ Succeeds (target.actionText action) :=
  succeeds_map

theorem succeeds_statements {actions : List Action} :
    Succeeds (target.statements actions) ↔
      ∀ action ∈ actions, Succeeds (target.actionText action) := by
  simp only [statements, succeeds_mapM, succeeds_statement]

section

variable {extension : Extension} {enumType : EnumType} {sequence : Sequence} {table : Table}
  {index : Index} {view : View} {function : StoredFunction} {trigger : Trigger} {policy : Policy}
  {name : QualifiedName}

theorem succeeds_createExtension :
    Succeeds (target.actionText (.createExtension extension)) ↔
      target.supports .extensions = true :=
  succeeds_whole.trans succeeds_createExtensionText

theorem succeeds_createEnum :
    Succeeds (target.actionText (.createEnum enumType)) ↔ target.supports .enums = true :=
  succeeds_whole.trans succeeds_createEnumText

theorem succeeds_createSequence :
    Succeeds (target.actionText (.createSequence sequence)) ↔ target.supports .sequences = true :=
  succeeds_whole.trans succeeds_createSequenceText

theorem succeeds_createTable :
    Succeeds (target.actionText (.createTable table)) ↔ target.TakesTable table :=
  succeeds_createTableText

theorem succeeds_createIndex :
    Succeeds (target.actionText (.createIndex index)) ↔ target.TakesIndex index :=
  succeeds_whole.trans succeeds_createIndexText

theorem succeeds_createView :
    Succeeds (target.actionText (.createView view)) ↔ target.supports (viewFeature view) = true :=
  succeeds_whole.trans succeeds_createViewText

theorem succeeds_createFunction :
    Succeeds (target.actionText (.createFunction function)) ↔ target.TakesFunction function :=
  succeeds_whole.trans succeeds_createFunctionText

theorem succeeds_createTrigger :
    Succeeds (target.actionText (.createTrigger trigger)) ↔ target.TakesTrigger trigger :=
  succeeds_whole.trans succeeds_createTriggerText

theorem succeeds_enableRowLevelSecurity :
    Succeeds (target.actionText (.enableRowLevelSecurity name)) ↔
      target.supports .rowLevelSecurity = true :=
  succeeds_whole.trans succeeds_enableRowLevelSecurityText

theorem succeeds_createPolicy :
    Succeeds (target.actionText (.createPolicy policy)) ↔
      target.supports .rowLevelSecurity = true :=
  succeeds_whole.trans succeeds_createPolicyText

end

structure TakesSchema (target : Target) (schema : Schema) : Prop where
  extensions : ∀ extension ∈ schema.extensions, target.supports .extensions = true
  enums : ∀ enumType ∈ schema.enums, target.supports .enums = true
  sequences : ∀ sequence ∈ schema.sequences, target.supports .sequences = true
  tables : ∀ table ∈ schema.tables, target.TakesTable table
  indexes : ∀ table ∈ schema.tables, ∀ index ∈ table.indexes, target.TakesIndex index
  views : ∀ view ∈ schema.views, target.supports (viewFeature view) = true
  functions : ∀ function ∈ schema.functions, target.TakesFunction function
  triggers : ∀ trigger ∈ schema.triggers, target.TakesTrigger trigger
  policies : ∀ policy ∈ schema.policies, target.supports .rowLevelSecurity = true

theorem succeeds_policyActions (secured : List QualifiedName) (policies : List Policy) :
    (∀ action ∈ policyActions secured policies, Succeeds (target.actionText action)) ↔
      ∀ policy ∈ policies, target.supports .rowLevelSecurity = true := by
  induction policies generalizing secured with
  | nil => simp [policyActions]
  | cons policy policies induction =>
      unfold policyActions
      split
      · simp only [List.forall_mem_cons, induction, succeeds_createPolicy]
      · simp only [List.forall_mem_cons, induction, succeeds_createPolicy,
          succeeds_enableRowLevelSecurity, and_self_left]

theorem succeeds_completion {capabilities : Capabilities} {comments : Bool} {table : Table}
    {action : Action} (member : action ∈ table.completion capabilities comments) :
    Succeeds (target.actionText action) := by
  rcases Table.of_mem_completion member with
    ⟨setting, rfl⟩ | ⟨comment, rfl⟩ | ⟨column, comment, rfl⟩
  · exact succeeds_ok _
  · exact succeeds_ok _
  · exact succeeds_ok _

theorem succeeds_createSchema {schema : Schema} :
    Succeeds (target.createSchema schema) ↔ target.TakesSchema schema := by
  have ownership : ∀ action ∈ schema.ownershipActions, Succeeds (target.actionText action) := by
    intro action member
    rcases List.mem_filterMap.mp member with ⟨sequence, _, found⟩
    rcases Option.map_eq_some_iff.mp found with ⟨owner, _, rfl⟩
    exact succeeds_ok _
  have completed : ∀ action, (∃ table, table ∈ schema.tables ∧
      action ∈ table.completion target.capabilities target.options.comments) →
        Succeeds (target.actionText action) :=
    fun _ ⟨_, _, member⟩ => succeeds_completion member
  rw [createSchema, succeeds_statements, Schema.creation]
  simp only [List.forall_mem_append, List.forall_mem_map, succeeds_policyActions,
    succeeds_createExtension, succeeds_createEnum, succeeds_createSequence, succeeds_createTable,
    succeeds_createIndex, succeeds_createView, succeeds_createFunction, succeeds_createTrigger,
    mem_inDependencyOrder, List.mem_flatMap]
  constructor
  · intro holds
    rcases holds with ⟨⟨⟨⟨⟨⟨⟨⟨⟨⟨extensions, enums⟩, sequences⟩, tables⟩, _⟩, indexes⟩, _⟩, views⟩,
      functions⟩, triggers⟩, policies⟩
    exact ⟨extensions, enums, sequences, tables,
      fun table tableMember index member => indexes index ⟨table, tableMember, member⟩, views,
      functions, triggers, policies⟩
  · intro holds
    rcases holds with ⟨extensions, enums, sequences, tables, indexes, views, functions, triggers,
      policies⟩
    exact ⟨⟨⟨⟨⟨⟨⟨⟨⟨⟨extensions, enums⟩, sequences⟩, tables⟩, ownership⟩,
      fun index ⟨table, tableMember, member⟩ => indexes table tableMember index member⟩,
      completed⟩, views⟩, functions⟩, triggers⟩, policies⟩

end SchemaDdl.Target
