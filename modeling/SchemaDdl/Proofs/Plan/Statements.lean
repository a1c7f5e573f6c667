import SchemaDdl.Plan.Migration
import SchemaDdl.Proofs.Success

/-!
# The statements of a plan

A plan holds one statement for each of its steps and no other. The phases only put the statements in
order, so what a plan does is read off its actions.
-/

namespace SchemaDdl

/-! ## Actions that endanger rows -/

namespace Action

variable {family : Family} {table : Table} {name : QualifiedName} {column : Column}
  {change : TableChange} {constraint : Constraint} {text subject : String}

@[simp] theorem destructive_dropTable : (dropTable name).destructive family = true := rfl

@[simp] theorem destructive_recreateTable :
    (recreateTable change).destructive family = change.isDestructive := rfl

@[simp] theorem destructive_addColumn_postgres {again : Bool} :
    (addColumn table column again).destructive .postgres =
      (again || column.requiresBackfill || column.unique) := rfl

@[simp] theorem destructive_addColumn_sqlite {again : Bool} :
    (addColumn table column again).destructive .sqlite = false := rfl

@[simp] theorem destructive_alterColumn {action : ColumnAction} :
    (alterColumn table column action).destructive family = action.destructive := rfl

@[simp] theorem destructive_replacePrimaryKey :
    (replacePrimaryKey change).destructive family = !change.new.primaryKeyColumns.isEmpty := rfl

@[simp] theorem destructive_createIndex {index : Index} :
    (createIndex index).destructive family = index.unique := rfl

@[simp] theorem destructive_dropIndex {index : Index} :
    (dropIndex index).destructive family = false := rfl

@[simp] theorem destructive_setTable {setting : TableSetting} :
    (setTable name setting).destructive family = false := rfl

@[simp] theorem destructive_refuse {construct : Construct} :
    (refuse name construct).destructive family = false := rfl

@[simp] theorem destructive_commentTable {comment : Option String} :
    (commentTable name comment).destructive family = false := rfl

@[simp] theorem destructive_commentColumn {comment : Option String} :
    (commentColumn name text comment).destructive family = false := rfl

@[simp] theorem destructive_createTable : (createTable table).destructive family = false := rfl

@[simp] theorem destructive_createExtension {extension : Extension} :
    (createExtension extension).destructive family = false := rfl

@[simp] theorem destructive_addEnumLabel {before : Option String} :
    (addEnumLabel name text before).destructive family = false := rfl

@[simp] theorem destructive_enableRowLevelSecurity :
    (enableRowLevelSecurity name).destructive family = false := rfl

@[simp] theorem destructive_createPolicy {policy : Policy} :
    (createPolicy policy).destructive family = false := rfl

end Action

/-! ## Actions that complete a table -/

theorem Table.of_mem_completion {table : Table} {capabilities : Capabilities} {comments : Bool}
    {action : Action} (member : action ∈ table.completion capabilities comments) :
    (∃ setting, action = .setTable table.qualifiedName setting) ∨
      (∃ comment, action = .commentTable table.qualifiedName comment) ∨
      ∃ column comment, action = .commentColumn table.qualifiedName column comment := by
  rcases List.mem_append.mp member with member | member
  · rcases List.mem_map.mp member with ⟨setting, _, rfl⟩
    exact .inl ⟨setting, rfl⟩
  · split at member
    · rcases List.mem_append.mp member with member | member
      · rcases Option.map_eq_some_iff.mp (Option.mem_toList.mp member) with ⟨comment, _, rfl⟩
        exact .inr (.inl ⟨comment, rfl⟩)
      · rcases List.mem_filterMap.mp member with ⟨column, _, found⟩
        rcases Option.map_eq_some_iff.mp found with ⟨comment, _, rfl⟩
        exact .inr (.inr ⟨column.name, comment, rfl⟩)
    · cases member

/-! ## Statements of actions -/

namespace Target

variable {target : Target} {actions : List Action} {written : List Statement}

theorem statement_eq_ok_iff {action : Action} {statement : Statement} :
    target.statement action = .ok statement ↔
      ∃ sql, target.actionText action = .ok sql ∧ target.statementWith action sql = statement :=
  map_eq_ok_iff

theorem destructive_of_statement {action : Action} {statement : Statement}
    (done : target.statement action = .ok statement) :
    statement.destructive = action.destructive target.family := by
  rcases statement_eq_ok_iff.mp done with ⟨sql, _, rfl⟩
  rfl

theorem affected_of_statement {action : Action} {statement : Statement}
    (done : target.statement action = .ok statement) :
    statement.affected = action.affected := by
  rcases statement_eq_ok_iff.mp done with ⟨sql, _, rfl⟩
  rfl

theorem operation_of_statement {action : Action} {statement : Statement}
    (done : target.statement action = .ok statement) :
    statement.operation = action.operation := by
  rcases statement_eq_ok_iff.mp done with ⟨sql, _, rfl⟩
  rfl

theorem any_destructive_of_written
    (carriesOut : ∀ statement ∈ written, ∃ action ∈ actions,
      target.statement action = .ok statement)
    (carriedOut : ∀ action ∈ actions, ∃ statement ∈ written,
      target.statement action = .ok statement) :
    written.any (·.destructive) = actions.any (·.destructive target.family) := by
  rw [Bool.eq_iff_iff, List.any_eq_true, List.any_eq_true]
  constructor
  · intro flagged
    rcases flagged with ⟨statement, member, destructive⟩
    rcases carriesOut statement member with ⟨action, actionMember, actionOk⟩
    exact ⟨action, actionMember, destructive_of_statement actionOk ▸ destructive⟩
  · intro dangerous
    rcases dangerous with ⟨action, member, destructive⟩
    rcases carriedOut action member with ⟨statement, statementMember, statementOk⟩
    exact ⟨statement, statementMember, (destructive_of_statement statementOk).trans destructive⟩

theorem any_destructive_statements (done : target.statements actions = .ok written) :
    written.any (·.destructive) = actions.any (·.destructive target.family) :=
  any_destructive_of_written (fun _ member => exists_item_of_mapM done member)
    fun _ member => exists_value_of_mapM done member

end Target

/-! ## Phases -/

theorem Phase.mem_all (phase : Phase) : phase ∈ all := by
  cases phase <;> simp [all]

theorem mem_inPhaseOrder {α : Type} {items : List (Phase × α)} {item : α} :
    item ∈ inPhaseOrder items ↔ ∃ phase, (phase, item) ∈ items := by
  simp only [inPhaseOrder, List.mem_flatMap, List.mem_map, List.mem_filter, beq_iff_eq]
  constructor
  · intro holds
    rcases holds with ⟨_, _, ⟨phase, item⟩, ⟨member, _⟩, rfl⟩
    exact ⟨phase, member⟩
  · intro holds
    rcases holds with ⟨phase, member⟩
    exact ⟨phase, phase.mem_all, (phase, item), ⟨member, rfl⟩, rfl⟩

/-! ## Plans -/

namespace Target

/-- The two versions that a plan is made for. -/
def schemaChange (target : Target) (old new : Schema) : SchemaChange :=
  ⟨old, new, target.capabilities.defaultSchema⟩

def plannedActions (target : Target) (old new : Schema) : List Action :=
  ((target.schemaChange old new).steps target.capabilities target.options.comments).map (·.action)

variable {target : Target} {old new : Schema} {plan : MigrationPlan}

theorem exists_action_of_plan (planned : target.plan old new = .ok plan) {statement : Statement}
    (member : statement ∈ plan.statements) :
    ∃ action ∈ target.plannedActions old new, target.statement action = .ok statement := by
  rcases bind_eq_ok_iff.mp planned with ⟨pairs, pairsOk, equal⟩
  cases equal
  rcases mem_inPhaseOrder.mp member with ⟨phase, pairMember⟩
  rcases exists_item_of_mapM pairsOk pairMember with ⟨step, stepMember, stepOk⟩
  rcases map_eq_ok_iff.mp stepOk with ⟨_, statementOk, equal⟩
  cases equal
  exact ⟨step.action, List.mem_map_of_mem stepMember, statementOk⟩

theorem exists_statement_of_plan (planned : target.plan old new = .ok plan) {action : Action}
    (member : action ∈ target.plannedActions old new) :
    ∃ statement ∈ plan.statements, target.statement action = .ok statement := by
  rcases bind_eq_ok_iff.mp planned with ⟨pairs, pairsOk, equal⟩
  cases equal
  rcases List.mem_map.mp member with ⟨step, stepMember, rfl⟩
  rcases exists_value_of_mapM pairsOk stepMember with ⟨⟨phase, statement⟩, pairMember, stepOk⟩
  rcases map_eq_ok_iff.mp stepOk with ⟨_, statementOk, equal⟩
  cases equal
  exact ⟨statement, mem_inPhaseOrder.mpr ⟨_, pairMember⟩, statementOk⟩

theorem isDestructive_plan (planned : target.plan old new = .ok plan) :
    plan.isDestructive =
      (target.plannedActions old new).any (·.destructive target.family) :=
  any_destructive_of_written (fun _ member => exists_action_of_plan planned member)
    fun _ member => exists_statement_of_plan planned member

end Target

end SchemaDdl
