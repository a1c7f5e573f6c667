import SchemaDdl.Capability.BuiltIn
import SchemaDdl.Proofs.Change.Danger
import SchemaDdl.Proofs.Plan.Matching
import SchemaDdl.Proofs.Plan.Steps

/-!
# Removals

No plan removes anything in silence: whatever table or column is gone in the new version of a schema
is named by a statement of the plan that is flagged as destructive.
-/

namespace SchemaDdl

/-! ## What is lost -/

/-- Whether a table has no counterpart in the new version. -/
def SchemaChange.LosesTable (change : SchemaChange) (table : Table) : Prop :=
  table ∈ change.old.tables ∧
    ∀ other ∈ change.new.tables,
      table.qualifiedName.agrees change.defaultSchema other.qualifiedName = false

/-- Whether a column is gone in a table that both versions have. -/
def SchemaChange.LosesColumn (change : SchemaChange) (pair : TableChange) (column : Column) :
    Prop :=
  pair.old ∈ change.old.tables ∧ pair.new ∈ change.new.tables ∧
    pair.old.qualifiedName.agrees change.defaultSchema pair.new.qualifiedName = true ∧
    pair.LosesColumn column

/-! ## Actions that remove -/

namespace TableChange

variable {change : TableChange} {capabilities : Capabilities} {comments : Bool} {column : Column}

theorem columnPath_mem_affected_recreateTable (lost : change.LosesColumn column) :
    Action.columnPath change.new.qualifiedName column.name ∈
      (Action.recreateTable change).affected := by
  apply List.mem_cons_of_mem
  refine List.mem_map.mpr ⟨column.name, ?_, rfl⟩
  simp only [List.mem_append]
  exact .inl (.inl (List.mem_map_of_mem (mem_removed.mpr lost)))

/-- The columns that are gone are dropped one by one on the Postgres family and by SQLite in place;
else the table is built anew without them. -/
theorem exists_removal (lost : change.LosesColumn column) :
    ∃ action ∈ change.actions capabilities comments,
      action.destructive capabilities.family = true ∧
        Action.columnPath change.new.qualifiedName column.name ∈ action.affected := by
  have destructive : change.isDestructive = true := isDestructive_iff.mpr (.lost column lost)
  have dropped : Action.dropColumn change.new.qualifiedName column.name ∈
      change.removed.map fun column => Action.dropColumn change.new.qualifiedName column.name :=
    List.mem_map_of_mem (mem_removed.mpr lost)
  unfold actions
  rw [isEmpty_of_isDestructive destructive]
  cases capabilities.family with
  | postgres =>
      refine ⟨.dropColumn change.new.qualifiedName column.name, ?_, rfl, List.mem_cons_self⟩
      simp only [Bool.false_eq_true, if_false, postgresActions, List.mem_append, dropped, true_or,
        or_true]
  | sqlite =>
      simp only [Bool.false_eq_true, if_false, sqliteActions]
      split
      · exact ⟨.recreateTable change, List.mem_singleton_self _, destructive,
          columnPath_mem_affected_recreateTable lost⟩
      · exact ⟨.dropColumn change.new.qualifiedName column.name,
          List.mem_append_right _ dropped, rfl, List.mem_cons_self⟩

end TableChange

/-! ## Plans that remove -/

namespace Target

variable {target : Target} {old new : Schema} {plan : MigrationPlan}

theorem dropTable_mem_plannedActions {table : Table}
    (lost : (target.schemaChange old new).LosesTable table) :
    .dropTable table.qualifiedName ∈ target.plannedActions old new := by
  have dropped : table ∈ (target.schemaChange old new).droppedTables :=
    SchemaChange.mem_droppedTables.mpr ⟨lost.1, fun other member =>
      Bool.eq_false_iff.mpr fun same =>
        Bool.eq_false_iff.mp (lost.2 other member) (QualifiedName.agrees_symm same)⟩
  have step : PlanStep.routed (.dropTable table.qualifiedName) ∈
      (target.schemaChange old new).dropSteps := by
    refine List.mem_map.mpr ⟨table, ?_, rfl⟩
    rw [List.mem_reverse, mem_inDependencyOrder]
    exact dropped
  refine List.mem_map.mpr ⟨.routed (.dropTable table.qualifiedName), ?_, rfl⟩
  simp only [SchemaChange.steps, List.mem_append, step, true_or, or_true]

theorem exists_dropTable_of_plan (planned : target.plan old new = .ok plan) {table : Table}
    (lost : (target.schemaChange old new).LosesTable table) :
    ∃ statement ∈ plan.statements, statement.operation = .dropTable ∧
      statement.destructive = true ∧ table.qualifiedName.text ∈ statement.affected := by
  rcases exists_statement_of_plan planned (dropTable_mem_plannedActions lost) with
    ⟨statement, member, written⟩
  refine ⟨statement, member, operation_of_statement written, destructive_of_statement written, ?_⟩
  rw [affected_of_statement written]
  exact List.mem_cons_self

theorem exists_destructive_of_plan (planned : target.plan old new = .ok plan)
    (apart : old.NamesApart target.capabilities.defaultSchema) {pair : TableChange}
    {column : Column} (lost : (target.schemaChange old new).LosesColumn pair column) :
    ∃ statement ∈ plan.statements, statement.destructive = true ∧
      Action.columnPath pair.new.qualifiedName column.name ∈ statement.affected := by
  rcases lost with ⟨oldMember, newMember, same, columnLost⟩
  have kept : pair ∈ (target.schemaChange old new).keptTables :=
    SchemaChange.mem_keptTables_of_agrees apart oldMember newMember same
  rcases TableChange.exists_removal columnLost with ⟨action, actionMember, destructive, affected⟩
  have plannedMember := mem_plannedActions_of_kept kept
    (TableChange.mem_plannedActions_of_mem_actions actionMember)
  rcases exists_statement_of_plan planned plannedMember with ⟨statement, member, written⟩
  refine ⟨statement, member, (destructive_of_statement written).trans destructive, ?_⟩
  rw [affected_of_statement written]
  exact affected

/-- A plan names every table and every column that is gone in a destructive statement, so that it is
destructive whenever something is gone. -/
theorem plan_names_removals (planned : target.plan old new = .ok plan)
    (apart : old.NamesApart target.capabilities.defaultSchema) :
    (∀ table, (target.schemaChange old new).LosesTable table →
      ∃ statement ∈ plan.statements, statement.operation = .dropTable ∧
        statement.destructive = true ∧ table.qualifiedName.text ∈ statement.affected) ∧
    (∀ pair column, (target.schemaChange old new).LosesColumn pair column →
      ∃ statement ∈ plan.statements, statement.destructive = true ∧
        Action.columnPath pair.new.qualifiedName column.name ∈ statement.affected) ∧
    ((∃ table, (target.schemaChange old new).LosesTable table) ∨
        (∃ pair column, (target.schemaChange old new).LosesColumn pair column) →
      plan.isDestructive = true) := by
  refine ⟨fun table lost => exists_dropTable_of_plan planned lost,
    fun pair column lost => exists_destructive_of_plan planned apart lost, ?_⟩
  intro gone
  rcases gone with ⟨table, lost⟩ | ⟨pair, column, lost⟩
  · rcases exists_dropTable_of_plan planned lost with ⟨statement, member, _, destructive, _⟩
    exact List.any_eq_true.mpr ⟨statement, member, destructive⟩
  · rcases exists_destructive_of_plan planned apart lost with ⟨statement, member, destructive, _⟩
    exact List.any_eq_true.mpr ⟨statement, member, destructive⟩

end Target

/-! ## An example -/

namespace RemovalExample

def identity : Column := { name := "id", dataType := "integer" }

def title : Column := { name := "title", dataType := "text" }

def titledPages : Table := { name := "pages", columns := [identity, title] }

def pages : Table := { name := "pages", columns := [identity] }

def visits : Table := { name := "visits", columns := [{ name := "page", dataType := "integer" }] }

def old : Schema := { tables := [titledPages, visits] }

def new : Schema := { tables := [pages] }

end RemovalExample

open RemovalExample in
/-- The visits are dropped, and SQLite builds the table of pages anew without their titles. -/
theorem plan_names_removals_pages :
    old.NamesApart "main" ∧
      ∃ plan, Target.plan ⟨Capabilities.sqlite, {}⟩ old new = .ok plan ∧
        (∃ statement ∈ plan.statements, statement.operation = .dropTable ∧
          statement.destructive = true ∧ "visits" ∈ statement.affected) ∧
        (∃ statement ∈ plan.statements, statement.destructive = true ∧
          "pages.title" ∈ statement.affected) ∧
        plan.isDestructive = true := by
  have apart : old.NamesApart "main" := by decide
  have succeeds : ∃ plan, Target.plan ⟨Capabilities.sqlite, {}⟩ old new = .ok plan := by
    decide +kernel
  rcases succeeds with ⟨plan, planned⟩
  rcases Target.plan_names_removals planned apart with ⟨tables, columns, flagged⟩
  have visitsLost : SchemaChange.LosesTable ⟨old, new, "main"⟩ visits :=
    ⟨List.mem_cons_of_mem _ List.mem_cons_self, by decide⟩
  have titleLost : SchemaChange.LosesColumn ⟨old, new, "main"⟩ ⟨titledPages, pages⟩ title :=
    ⟨List.mem_cons_self, List.mem_cons_self, by decide,
      List.mem_cons_of_mem _ List.mem_cons_self, by decide⟩
  exact ⟨apart, plan, planned, tables visits visitsLost, columns _ title titleLost,
    flagged (.inl ⟨visits, visitsLost⟩)⟩

end SchemaDdl
