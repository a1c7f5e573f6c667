import SchemaDdl.Proofs.Plan.Dependency
import SchemaDdl.Proofs.Plan.Statements

/-!
# The steps of a plan

Which actions a plan is made of, and which of them endanger rows that exist. New objects beside
tables never do; a new table does through its unique indexes only; a dropped table always does.
-/

namespace SchemaDdl

/-! ## Existing tables -/

namespace TableChange

variable {change : TableChange} {capabilities : Capabilities} {comments : Bool} {family : Family}

/-- The actions for a table of both versions, those for its indexes included. -/
def plannedActions (change : TableChange) (capabilities : Capabilities) (comments : Bool) :
    List Action :=
  (change.steps capabilities comments).map (·.action)

@[simp] theorem action_alterationStep (actions : List Action) (action : Action) :
    (alterationStep actions action).action = action := by
  unfold alterationStep
  split <;> rfl

theorem map_action_alterationSteps :
    (change.alterationSteps capabilities comments).map (·.action) =
      change.actions capabilities comments := by
  simp [alterationSteps, Function.comp_def]

theorem mem_plannedActions_of_mem_actions {action : Action}
    (member : action ∈ change.actions capabilities comments) :
    action ∈ change.plannedActions capabilities comments := by
  rw [← map_action_alterationSteps] at member
  unfold plannedActions steps
  split
  · exact member
  · simp only [List.map_append, List.mem_append]
    exact .inl (.inr member)

/-- Whether the new version has a unique index that the old one lacks or has in another form. -/
def addsUniqueIndex (change : TableChange) : Bool :=
  change.new.indexes.any fun index =>
    index.unique && change.old.indexes.find? (·.name == index.name) != some index

theorem any_destructive_indexRemovals :
    change.indexRemovals.any (·.action.destructive family) = false := by
  simp [indexRemovals, PlanStep.routed]

theorem any_destructive_indexAdditions :
    change.indexAdditions.any (·.action.destructive family) = change.addsUniqueIndex := by
  unfold indexAdditions addsUniqueIndex
  rw [List.any_flatMap]
  congr 1
  funext index
  cases found : change.old.indexes.find? (·.name == index.name) with
  | none => simp [PlanStep.routed]
  | some held =>
      by_cases same : held = index
      · simp [same]
      · simp [same]

theorem any_destructive_plannedActions :
    (change.plannedActions capabilities comments).any (·.destructive family) =
      ((change.actions capabilities comments).any (·.destructive family)
        || (!change.requiresRecreation capabilities && change.addsUniqueIndex)) := by
  rw [← map_action_alterationSteps]
  unfold plannedActions steps
  cases change.requiresRecreation capabilities with
  | true => simp
  | false =>
      simp only [Bool.false_eq_true, if_false, List.any_map, List.any_append, Function.comp_def,
        any_destructive_indexRemovals, any_destructive_indexAdditions, Bool.false_or,
        Bool.not_false, Bool.true_and]

end TableChange

/-! ## New objects -/

namespace SchemaChange

variable {change : SchemaChange} {capabilities : Capabilities} {comments : Bool} {family : Family}

theorem any_destructive_standingSteps {α : Type} {create : α → Action}
    (quiet : ∀ object, (create object).destructive family = false) (objects : List α)
    (standing : α → Standing α) :
    (objects.flatMap fun object => (standing object).steps (create object)).any
      (·.action.destructive family) = false := by
  rw [List.any_flatMap, List.any_eq_false]
  intro object _
  cases standing object <;> simp [Standing.steps, PlanStep.routed, quiet]

theorem any_destructive_labelActions (name : QualifiedName) (held labels : List String) :
    (labelActions name held labels).any (·.destructive family) = false := by
  induction labels with
  | nil => rfl
  | cons label labels induction =>
      unfold labelActions
      split
      · exact induction
      · simpa using induction

theorem any_destructive_securingActions (named : List String) (policies : List Policy) :
    (change.securingActions named policies).any (·.destructive family) = false := by
  induction policies generalizing named with
  | nil => rfl
  | cons policy policies induction =>
      unfold securingActions
      split
      · simpa using induction named
      · simpa using induction (policy.table.text :: named)

theorem any_destructive_enumPlan (enumType : EnumType) :
    (change.enumPlan enumType).1.any (·.destructive family) = false := by
  unfold enumPlan
  split
  · rfl
  · split
    · rfl
    · split
      · exact any_destructive_labelActions ..
      · rfl

theorem any_destructive_completion (table : Table) :
    (table.completion capabilities comments).any (·.destructive family) = false := by
  rw [List.any_eq_false]
  intro action member
  rcases Table.of_mem_completion member with
    ⟨setting, rfl⟩ | ⟨comment, rfl⟩ | ⟨column, comment, rfl⟩
  · exact Bool.false_ne_true
  · exact Bool.false_ne_true
  · exact Bool.false_ne_true

theorem any_destructive_creationActions (table : Table) :
    (creationActions capabilities comments table).any (·.destructive family) =
      table.indexes.any (·.unique) := by
  unfold creationActions
  simp [any_destructive_completion, Function.comp_def]

/-! ## Whole plans -/

theorem any_destructive_creationSteps :
    (change.creationSteps capabilities comments).any (·.action.destructive family) =
      change.createdTables.any fun table => table.indexes.any (·.unique) := by
  unfold creationSteps
  simp only [List.any_flatMap, List.any_map, Function.comp_def, PlanStep.routed,
    any_destructive_creationActions]
  rw [Bool.eq_iff_iff, List.any_eq_true, List.any_eq_true]
  simp only [mem_inDependencyOrder]

theorem any_destructive_dropSteps :
    change.dropSteps.any (·.action.destructive family) = !change.droppedTables.isEmpty := by
  unfold dropSteps
  simp only [List.any_map, Function.comp_def, PlanStep.routed]
  rw [Bool.eq_iff_iff, List.any_eq_true, Bool.not_eq_true', List.isEmpty_eq_false_iff_exists_mem]
  simp [mem_inDependencyOrder]

/-- What endangers rows in a plan: a table that is dropped, a unique index on a table that is
created, and whatever endangers the rows of a table that is kept. -/
theorem any_destructive_steps :
    (change.steps capabilities comments).any (·.action.destructive family) =
      (!change.droppedTables.isEmpty
        || change.createdTables.any (fun table => table.indexes.any (·.unique))
        || change.keptTables.any fun pair =>
          (pair.plannedActions capabilities comments).any (·.destructive family)) := by
  have extensions : change.extensionSteps.any (·.action.destructive family) = false := by
    simp [extensionSteps, PlanStep.routed]
  have enums : change.enumSteps.any (·.action.destructive family) = false := by
    simp only [enumSteps, List.any_flatMap, List.any_map, Function.comp_def, PlanStep.routed,
      any_destructive_enumPlan]
    simp
  have policies : change.policySteps.any (·.action.destructive family) = false := by
    simpa only [policySteps, List.any_map, Function.comp_def, PlanStep.routed] using
      any_destructive_securingActions [] change.addedPolicies
  have kept : (change.keptTables.flatMap (·.steps capabilities comments)).any
      (·.action.destructive family) = change.keptTables.any fun pair =>
        (pair.plannedActions capabilities comments).any (·.destructive family) := by
    simp only [List.any_flatMap, TableChange.plannedActions, List.any_map, Function.comp_def]
  have sequences : change.sequenceSteps.any (·.action.destructive family) = false :=
    any_destructive_standingSteps (fun _ => rfl) ..
  have views : change.viewSteps.any (·.action.destructive family) = false :=
    any_destructive_standingSteps (fun _ => rfl) ..
  have functions : change.functionSteps.any (·.action.destructive family) = false :=
    any_destructive_standingSteps (fun _ => rfl) ..
  have triggers : change.triggerSteps.any (·.action.destructive family) = false :=
    any_destructive_standingSteps (fun _ => rfl) ..
  unfold steps
  simp only [List.any_append, extensions, enums, sequences, any_destructive_creationSteps, kept,
    any_destructive_dropSteps, views, functions, triggers, policies, Bool.false_or, Bool.or_false]
  ac_rfl

end SchemaChange

namespace Target

variable {target : Target} {old new : Schema} {plan : MigrationPlan}

theorem mem_plannedActions_of_kept {pair : TableChange} {action : Action}
    (kept : pair ∈ (target.schemaChange old new).keptTables)
    (member : action ∈ pair.plannedActions target.capabilities target.options.comments) :
    action ∈ target.plannedActions old new := by
  rcases List.mem_map.mp member with ⟨step, stepMember, rfl⟩
  have found : step ∈ (target.schemaChange old new).keptTables.flatMap
      (·.steps target.capabilities target.options.comments) :=
    List.mem_flatMap.mpr ⟨pair, kept, stepMember⟩
  refine List.mem_map_of_mem ?_
  simp only [SchemaChange.steps, List.mem_append, found, true_or, or_true]

theorem isDestructive_plan_iff (planned : target.plan old new = .ok plan) :
    plan.isDestructive = true ↔
      (target.schemaChange old new).droppedTables ≠ [] ∨
      (∃ table ∈ (target.schemaChange old new).createdTables,
        ∃ index ∈ table.indexes, index.unique = true) ∨
      ∃ pair ∈ (target.schemaChange old new).keptTables,
        (pair.plannedActions target.capabilities target.options.comments).any
          (·.destructive target.family) = true := by
  rw [isDestructive_plan planned, plannedActions, List.any_map, Function.comp_def,
    SchemaChange.any_destructive_steps]
  simp only [Bool.or_eq_true, List.any_eq_true, Bool.not_eq_true', List.isEmpty_eq_false_iff,
    or_assoc]

theorem succeeds_statement_of_kept (planned : target.plan old new = .ok plan) {pair : TableChange}
    (kept : pair ∈ (target.schemaChange old new).keptTables) {action : Action}
    (member : action ∈ pair.plannedActions target.capabilities target.options.comments) :
    Succeeds (target.statement action) :=
  let ⟨statement, _, written⟩ :=
    exists_statement_of_plan planned (mem_plannedActions_of_kept kept member)
  ⟨statement, written⟩

end Target

end SchemaDdl
