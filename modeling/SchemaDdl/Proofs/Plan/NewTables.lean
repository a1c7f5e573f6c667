import SchemaDdl.Capability.BuiltIn
import SchemaDdl.Proofs.Plan.Parts
import SchemaDdl.Proofs.Plan.Steps

/-!
# What a plan does to tables that it creates

A table that a plan creates has no rows that could be lost or refused. Nothing that the plan does to
it is flagged but the building of a unique index, which is flagged as on any other table.
-/

namespace SchemaDdl

/-! ## Tables of actions -/

/-- The table to which an action does something; what stands beside tables has none. -/
def Action.table? : Action → Option QualifiedName
  | .createTable table | .addColumn table _ _ | .alterColumn table _ _ | .addConstraint table _ _
  | .replaceConstraint table _ _ _ => some table.qualifiedName
  | .recreateTable change | .replacePrimaryKey change => some change.new.qualifiedName
  | .dropTable table | .dropColumn table _ | .dropConstraint table _ _ | .setTable table _
  | .refuse table _ | .commentTable table _ | .commentColumn table _ _
  | .enableRowLevelSecurity table => some table
  | .createIndex index | .dropIndex index => some index.table
  | .createTrigger trigger => some trigger.table
  | .createPolicy policy => some policy.table
  | .createExtension _ | .createEnum _ | .addEnumLabel .. | .createSequence _ | .ownSequence ..
  | .createView _ | .createFunction _ => none

theorem Action.table?_of_leads {action : Action}
    (leads : action.operation ∈ [.createExtension, .createType, .createSequence]) :
    action.table? = none := by
  revert leads
  cases action <;> simp [operation, table?]

theorem Action.destructive_of_trails {action : Action} {family : Family}
    (trails : action.operation ∈ [.createView, .createFunction, .createTrigger, .createPolicy]) :
    action.destructive family = false := by
  revert trails
  cases action <;> simp [operation, destructive]

namespace TableChange

variable {change : TableChange} {capabilities : Capabilities} {comments : Bool}

theorem AltersPart.table? {action : Action} (part : change.AltersPart action) :
    action.table? = some change.new.qualifiedName := by
  cases part with
  | rest rest => cases rest <;> rfl
  | _ => rfl

theorem table?_of_mem_columnActions {pair : ColumnChange} :
    ∀ action ∈ change.columnActions comments pair,
      action.table? = some change.new.qualifiedName := by
  intro action member
  cases regenerates : pair.regenerates with
  | false => exact (AltersPart.of_mem_columnActions regenerates action member).table?
  | true =>
      rw [columnActions_of_regenerates regenerates] at member
      rcases List.mem_pair.mp member with rfl | rfl <;> rfl

theorem table?_of_mem_actions :
    ∀ action ∈ change.actions capabilities comments,
      action.table? = some change.new.qualifiedName := by
  unfold actions
  split
  · exact List.forall_mem_nil _
  · split
    · rw [postgresActions_eq]
      simp only [List.forall_mem_append, columnAdditions, columnRemovals, List.forall_mem_map]
      refine ⟨⟨⟨fun _ _ => rfl, fun _ _ => rfl⟩, fun action member => ?_⟩,
        fun action member => (AltersPart.of_mem_tableActions action member).table?⟩
      rcases List.mem_flatMap.mp member with ⟨pair, _, member⟩
      exact table?_of_mem_columnActions action member
    · unfold sqliteActions
      split
      · exact List.forall_mem_singleton.mpr rfl
      · simp only [List.forall_mem_append, List.forall_mem_map]
        exact ⟨fun _ _ => rfl, fun _ _ => rfl⟩

theorem createIndex_not_mem_actions {index : Index} :
    Action.createIndex index ∉ change.actions capabilities comments := by
  intro member
  cases alters_of_mem_actions _ member with
  | part part => cases part

end TableChange

/-! ## Tables that are created -/

namespace SchemaChange

variable {change : SchemaChange} {capabilities : Capabilities} {comments : Bool} {family : Family}
  {name : QualifiedName} {index : Index}

/-- Whether a name means a table that is created. -/
def Creates (change : SchemaChange) (name : QualifiedName) : Prop :=
  ∃ table ∈ change.createdTables, table.qualifiedName.agrees change.defaultSchema name = true

theorem not_creates_of_kept {pair : TableChange} (kept : pair ∈ change.keptTables) :
    ¬change.Creates pair.new.qualifiedName := by
  intro creates
  rcases creates with ⟨table, created, agrees⟩
  have old := (mem_createdTables.mp created).2 pair.old
    (List.mem_of_find?_eq_some (mem_keptTables.mp kept).2)
  have same := QualifiedName.agrees_trans (agrees_of_mem_keptTables kept)
    (QualifiedName.agrees_symm agrees)
  cases old.symm.trans same

theorem not_creates_of_dropped {table : Table} (dropped : table ∈ change.droppedTables) :
    ¬change.Creates table.qualifiedName := by
  intro creates
  rcases creates with ⟨other, created, agrees⟩
  have new := (mem_droppedTables.mp dropped).2 other (mem_createdTables.mp created).1
  cases new.symm.trans agrees

/-- Whether an index is built by a statement of its own: with a table that is created, or as a new
or changed one of a table that is altered in place. -/
inductive BuildsIndex (change : SchemaChange) (capabilities : Capabilities) (index : Index) : Prop
  | created (table : Table) (creates : table ∈ change.createdTables)
      (member : index ∈ table.indexes)
  | kept (pair : TableChange) (keeps : pair ∈ change.keptTables)
      (inPlace : pair.requiresRecreation capabilities = false) (member : index ∈ pair.new.indexes)
      (differs : pair.old.indexes.find? (·.name == index.name) ≠ some index)

theorem mem_creationSteps {step : PlanStep} :
    step ∈ change.creationSteps capabilities comments ↔ ∃ table ∈ change.createdTables,
      ∃ action ∈ creationActions capabilities comments table, .routed action = step := by
  simp only [creationSteps, List.mem_flatMap, mem_inDependencyOrder, List.mem_map]

theorem mem_creationActions {table : Table} {action : Action} :
    action ∈ creationActions capabilities comments table ↔
      action = .createTable table ∨ (∃ index ∈ table.indexes, .createIndex index = action) ∨
        action ∈ table.completion capabilities comments := by
  simp only [creationActions, List.cons_append, List.mem_cons, List.mem_append, List.mem_map]

theorem createIndex_not_mem_completion {table : Table} :
    Action.createIndex index ∉ table.completion capabilities comments := by
  intro member
  rcases Table.of_mem_completion member with ⟨_, same⟩ | ⟨_, same⟩ | ⟨_, _, same⟩ <;> cases same

theorem createIndex_mem_indexAdditions_iff {pair : TableChange} :
    (∃ step ∈ pair.indexAdditions, step.action = .createIndex index) ↔
      index ∈ pair.new.indexes ∧ pair.old.indexes.find? (·.name == index.name) ≠ some index := by
  simp only [TableChange.indexAdditions, List.mem_flatMap]
  constructor
  · intro holds
    rcases holds with ⟨step, ⟨other, member, planned⟩, same⟩
    cases found : pair.old.indexes.find? (·.name == other.name) with
    | none =>
        simp only [found, List.mem_singleton] at planned
        subst planned
        cases same
        exact ⟨member, by simp [found]⟩
    | some held =>
        by_cases unchanged : held = other
        · simp [found, unchanged] at planned
        · simp only [found, beq_iff_eq, unchanged, if_false] at planned
          rcases List.mem_pair.mp planned with rfl | rfl
          · cases same
          · cases same
            exact ⟨member, fun equal => unchanged (Option.some.inj (found.symm.trans equal))⟩
  · intro holds
    rcases holds with ⟨member, differs⟩
    cases found : pair.old.indexes.find? (·.name == index.name) with
    | none => exact ⟨.routed (.createIndex index), ⟨index, member, by simp [found]⟩, rfl⟩
    | some held =>
        have changed : held ≠ index := fun same => differs (found.trans (congrArg some same))
        exact ⟨⟨.modification, .createIndex index⟩, ⟨index, member, by simp [found, changed]⟩, rfl⟩

theorem createIndex_mem_keptSteps_iff {pair : TableChange} :
    (∃ step ∈ pair.steps capabilities comments, step.action = .createIndex index) ↔
      pair.requiresRecreation capabilities = false ∧ index ∈ pair.new.indexes ∧
        pair.old.indexes.find? (·.name == index.name) ≠ some index := by
  have alterations : ∀ step ∈ pair.alterationSteps capabilities comments,
      step.action ≠ .createIndex index := by
    refine List.forall_mem_map.mpr fun action member same => ?_
    rw [TableChange.action_alterationStep] at same
    exact TableChange.createIndex_not_mem_actions (same ▸ member)
  have removals : ∀ step ∈ pair.indexRemovals, step.action ≠ .createIndex index :=
    List.forall_mem_map.mpr fun _ _ => nofun
  rw [← createIndex_mem_indexAdditions_iff, TableChange.steps]
  cases pair.requiresRecreation capabilities with
  | true => simpa using alterations
  | false =>
      simp only [Bool.false_eq_true, if_false, List.mem_append, true_and]
      constructor
      · intro holds
        rcases holds with ⟨step, (removal | alteration) | addition, same⟩
        · exact absurd same (removals step removal)
        · exact absurd same (alterations step alteration)
        · exact ⟨step, addition, same⟩
      · intro holds
        rcases holds with ⟨step, addition, same⟩
        exact ⟨step, .inr addition, same⟩

theorem createIndex_mem_steps_iff :
    (∃ step ∈ change.steps capabilities comments, step.action = .createIndex index) ↔
      change.BuildsIndex capabilities index := by
  constructor
  · intro holds
    rcases holds with ⟨step, member, builds⟩
    rw [steps_eq] at member
    simp only [List.mem_append] at member
    rcases member with (((leading | creation) | kept) | dropped) | trailing
    · have operation := (of_mem_leadingSteps leading).2
      rw [builds] at operation
      cases Action.table?_of_leads operation
    · rcases mem_creationSteps.mp creation with ⟨table, creates, action, planned, rfl⟩
      rcases mem_creationActions.mp planned with rfl | ⟨other, member, rfl⟩ | completes
      · cases builds
      · cases builds
        exact .created table creates member
      · cases builds
        exact absurd completes createIndex_not_mem_completion
    · rcases List.mem_flatMap.mp kept with ⟨pair, keeps, planned⟩
      rcases createIndex_mem_keptSteps_iff.mp ⟨step, planned, builds⟩ with
        ⟨inPlace, member, differs⟩
      exact .kept pair keeps inPlace member differs
    · rcases List.mem_map.mp dropped with ⟨table, _, rfl⟩
      cases builds
    · have operation := (operation_of_mem_trailingSteps trailing).1
      rw [builds] at operation
      simp [Action.operation] at operation
  · intro builds
    rw [steps_eq]
    simp only [List.mem_append]
    cases builds with
    | created table creates member =>
        have planned : Action.createIndex index ∈ creationActions capabilities comments table :=
          mem_creationActions.mpr (.inr (.inl ⟨index, member, rfl⟩))
        have found := mem_creationSteps.mpr ⟨table, creates, _, planned, rfl⟩
        exact ⟨_, .inl (.inl (.inl (.inr found))), rfl⟩
    | kept pair keeps inPlace member differs =>
        rcases createIndex_mem_keptSteps_iff.mpr ⟨inPlace, member, differs⟩ with
          ⟨step, planned, same⟩
        exact ⟨step, .inl (.inl (.inr (List.mem_flatMap.mpr ⟨pair, keeps, planned⟩))), same⟩

theorem destructive_iff_of_creates {step : PlanStep}
    (member : step ∈ change.steps capabilities comments) (acts : name ∈ step.action.table?)
    (creates : change.Creates name) :
    step.action.destructive family = true ↔
      ∃ index, step.action = .createIndex index ∧ index.unique = true := by
  have quiet : step.action.destructive family = false → step.action.operation ≠ .createIndex →
      (step.action.destructive family = true ↔
        ∃ index, step.action = .createIndex index ∧ index.unique = true) := by
    intro harmless other
    refine iff_of_false (by simp [harmless]) fun found => ?_
    rcases found with ⟨index, same, _⟩
    exact other (congrArg Action.operation same)
  have building : ∀ index, step.action = .createIndex index →
      (step.action.destructive family = true ↔
        ∃ index, step.action = .createIndex index ∧ index.unique = true) := by
    intro index same
    simp [same]
  -- What is done for tables that were there is done to these, and none of them is created. Only an
  -- index may be built for one table and name another.
  rw [steps_eq] at member
  simp only [List.mem_append] at member
  rcases member with (((leading | creation) | kept) | dropped) | trailing
  · rw [Action.table?_of_leads (of_mem_leadingSteps leading).2] at acts
    cases acts
  · rcases mem_creationSteps.mp creation with ⟨table, _, action, planned, rfl⟩
    rcases mem_creationActions.mp planned with rfl | ⟨index, _, rfl⟩ | completes
    · exact quiet rfl nofun
    · exact building index rfl
    · rcases Table.of_mem_completion completes with ⟨_, rfl⟩ | ⟨_, rfl⟩ | ⟨_, _, rfl⟩
      · exact quiet rfl nofun
      · exact quiet rfl nofun
      · exact quiet rfl nofun
  · rcases List.mem_flatMap.mp kept with ⟨pair, pairKept, planned⟩
    rcases TableChange.mem_actions_or_index_of_mem_steps step planned with
      alters | ⟨index, drops | builds⟩
    · rw [TableChange.table?_of_mem_actions _ alters] at acts
      cases acts
      exact absurd creates (not_creates_of_kept pairKept)
    · exact quiet (by rw [drops]; rfl) (by rw [drops]; nofun)
    · exact building index builds
  · rcases List.mem_map.mp dropped with ⟨table, removed, rfl⟩
    have removed : table ∈ change.droppedTables := by
      simpa [mem_inDependencyOrder] using removed
    cases acts
    exact absurd creates (not_creates_of_dropped removed)
  · have operation := (operation_of_mem_trailingSteps trailing).1
    refine quiet (Action.destructive_of_trails operation) fun same => ?_
    rw [same] at operation
    simp at operation

end SchemaChange

/-! ## Plans -/

namespace Target

variable {target : Target} {old new : Schema} {plan : MigrationPlan}

/-- Whether a statement of a plan does something to a table that the plan creates. -/
def ActsOnNewTable (target : Target) (old new : Schema) (statement : Statement) : Prop :=
  ∃ action ∈ target.plannedActions old new, target.statement action = .ok statement ∧
    ∃ name ∈ action.table?, (target.schemaChange old new).Creates name

theorem destructive_iff_of_actsOnNewTable {statement : Statement}
    (acts : target.ActsOnNewTable old new statement) :
    statement.destructive = true ↔ ∃ index,
      (target.schemaChange old new).BuildsIndex target.capabilities index ∧
      (target.schemaChange old new).Creates index.table ∧ index.unique = true ∧
      target.statement (.createIndex index) = .ok statement := by
  constructor
  · intro destructive
    rcases acts with ⟨action, member, written, name, acts, creates⟩
    rcases List.mem_map.mp member with ⟨step, stepMember, rfl⟩
    rw [destructive_of_statement written,
      SchemaChange.destructive_iff_of_creates stepMember acts creates] at destructive
    rcases destructive with ⟨index, same, unique⟩
    have builds := SchemaChange.createIndex_mem_steps_iff.mp ⟨step, stepMember, same⟩
    rw [same] at acts written
    cases acts
    exact ⟨index, builds, creates, unique, written⟩
  · intro holds
    rcases holds with ⟨index, _, _, unique, written⟩
    exact (destructive_of_statement written).trans unique

theorem isDestructive_plan_iff_of_empty (planned : target.plan old new = .ok plan)
    (empty : old.tables = []) :
    plan.isDestructive = true ↔
      ∃ table ∈ new.tables, ∃ index ∈ table.indexes, index.unique = true := by
  have created : (target.schemaChange old new).createdTables = new.tables := by
    simp [SchemaChange.createdTables, schemaChange, Schema.tableMatching?, empty]
  have dropped : (target.schemaChange old new).droppedTables = [] := by
    simp [SchemaChange.droppedTables, schemaChange, empty]
  have kept : (target.schemaChange old new).keptTables = [] := by
    simp [SchemaChange.keptTables, schemaChange, Schema.tableMatching?, empty]
  rw [isDestructive_plan_iff planned, created, dropped, kept]
  simp

/-- No statement for a table that a plan creates is flagged exactly when the plan builds no unique
index on such a table. Where all tables are created, the plan is not destructive exactly when no
table has a unique index. -/
theorem plan_sparesNewTables_iff (planned : target.plan old new = .ok plan) :
    ((∀ statement ∈ plan.statements, target.ActsOnNewTable old new statement →
        statement.destructive = false) ↔
      ∀ index, (target.schemaChange old new).BuildsIndex target.capabilities index →
        (target.schemaChange old new).Creates index.table → index.unique = false) ∧
    (old.tables = [] → (plan.isDestructive = false ↔
      ∀ table ∈ new.tables, ∀ index ∈ table.indexes, index.unique = false)) := by
  refine ⟨⟨fun spared index builds creates => ?_, fun plain statement member acts => ?_⟩,
    fun empty => ?_⟩
  · rcases SchemaChange.createIndex_mem_steps_iff.mpr builds with ⟨step, stepMember, same⟩
    have member : Action.createIndex index ∈ target.plannedActions old new :=
      List.mem_map.mpr ⟨step, stepMember, same⟩
    rcases exists_statement_of_plan planned member with ⟨statement, statementMember, written⟩
    have calm := spared statement statementMember ⟨_, member, written, index.table, rfl, creates⟩
    exact (destructive_of_statement written).symm.trans calm
  · refine Bool.eq_false_iff.mpr fun destructive => ?_
    rcases (destructive_iff_of_actsOnNewTable acts).mp destructive with
      ⟨index, builds, creates, unique, _⟩
    cases (plain index builds creates).symm.trans unique
  · rw [← Bool.not_eq_true, isDestructive_plan_iff_of_empty planned empty]
    simp

end Target

/-! ## An example -/

namespace NewTablesExample

def slug : Column := { name := "slug", dataType := "text" }

def bySlug (unique : Bool) : Index :=
  { name := "by_slug", table := .plain "pages", keys := [{ target := .column "slug" }], unique }

def pages (unique : Bool) : Table :=
  { name := "pages", columns := [slug], indexes := [bySlug unique] }

def site (unique : Bool) : Schema := { tables := [pages unique] }

end NewTablesExample

open NewTablesExample in
/-- An index that is not unique is built for a new table like the table itself. -/
theorem Target.plan_sparesNewTables_pages :
    ∃ plan, Target.plan ⟨Capabilities.postgres, {}⟩ {} (site false) = .ok plan ∧
      (∀ statement ∈ plan.statements,
        Target.ActsOnNewTable ⟨Capabilities.postgres, {}⟩ {} (site false) statement →
          statement.destructive = false) ∧
      plan.isDestructive = false := by
  have succeeds : ∃ plan, Target.plan ⟨Capabilities.postgres, {}⟩ {} (site false) = .ok plan := by
    decide +kernel
  rcases succeeds with ⟨plan, planned⟩
  have plain : ∀ table ∈ (site false).tables, ∀ index ∈ table.indexes, index.unique = false := by
    decide
  rcases Target.plan_sparesNewTables_iff planned with ⟨spares, fromNothing⟩
  refine ⟨plan, planned, spares.mpr fun index builds _ => ?_, (fromNothing rfl).mpr plain⟩
  cases builds with
  | created table creates member =>
      exact plain table (SchemaChange.mem_createdTables.mp creates).1 index member
  | kept pair keeps => cases keeps

open NewTablesExample in
/-- The unique index is built while the table is empty, and makes the plan destructive. -/
theorem Target.plan_flags_unique_index_pages :
    ∃ plan, Target.plan ⟨Capabilities.postgres, {}⟩ {} (site true) = .ok plan ∧
      plan.statements.map (·.operation) = [.createTable, .createIndex] ∧
      plan.statements.map (·.destructive) = [false, true] ∧ plan.isDestructive = true := by
  decide +kernel

end SchemaDdl
