import SchemaDdl.Proofs.Plan.Replacement

/-!
# What a plan does in each phase

The objects that tables stand on and the tables themselves come first, then what is added to tables,
what is changed or stands on tables, what is removed from them, and the tables that are dropped.
-/

namespace SchemaDdl

/-! ## New tables -/

section

variable {phase : Phase} {capabilities : Capabilities} {comments : Bool} {action : Action}

theorem phase_of_mem_completion {table : Table}
    (member : action ∈ table.completion capabilities comments) :
    action.operation.phase = .modification := by
  rcases Table.of_mem_completion member with
    ⟨setting, rfl⟩ | ⟨comment, rfl⟩ | ⟨column, comment, rfl⟩ <;> rfl

theorem actionsIn_creationActions {tables : List Table} :
    actionsIn phase
        ((tables.flatMap (SchemaChange.creationActions capabilities comments)).map .routed) =
      match phase with
      | .creation => tables.map .createTable
      | .addition => (tables.flatMap (·.indexes)).map .createIndex
      | .modification => tables.flatMap (Table.completion capabilities comments)
      | .removal | .tableRemoval => [] := by
  have parts : ∀ table, actionsIn phase
      ((SchemaChange.creationActions capabilities comments table).map .routed) =
        (if Phase.creation = phase then [Action.createTable table] else [])
          ++ (if Phase.addition = phase then table.indexes.map Action.createIndex else [])
          ++ (if Phase.modification = phase then table.completion capabilities comments
            else []) := by
    intro table
    have built : ∀ action ∈ [Action.createTable table], action.operation.phase = .creation :=
      List.forall_mem_singleton.mpr rfl
    have indexed : ∀ action ∈ table.indexes.map Action.createIndex,
        action.operation.phase = .addition := List.forall_mem_map.mpr fun _ _ => rfl
    have completed : ∀ action ∈ table.completion capabilities comments,
        action.operation.phase = .modification := fun _ => phase_of_mem_completion
    rw [← actionsIn_map_routed_of_forall built, ← actionsIn_map_routed_of_forall indexed,
      ← actionsIn_map_routed_of_forall completed, ← actionsIn_append, ← actionsIn_append,
      ← List.map_append, ← List.map_append]
    rfl
  rw [List.map_flatMap, actionsIn_flatMap]
  simp only [parts]
  cases phase
  · simp [List.map_eq_flatMap]
  · simp [List.map_flatMap]
  · simp
  · simp
  · simp

end

/-! ## Objects beside tables -/

namespace SchemaChange

variable {change : SchemaChange} {capabilities : Capabilities} {comments : Bool} {action : Action}
  {step : PlanStep}

def leadingSteps (change : SchemaChange) : List PlanStep :=
  change.extensionSteps ++ change.enumSteps ++ change.sequenceSteps

def trailingSteps (change : SchemaChange) : List PlanStep :=
  change.viewSteps ++ change.functionSteps ++ change.triggerSteps ++ change.policySteps

theorem steps_eq :
    change.steps capabilities comments =
      change.leadingSteps ++ change.creationSteps capabilities comments
        ++ change.keptTables.flatMap (·.steps capabilities comments) ++ change.dropSteps
        ++ change.trailingSteps := by
  simp only [steps, leadingSteps, trailingSteps, List.append_assoc]

theorem operation_of_mem_labelActions {name : QualifiedName} {held labels : List String}
    (member : action ∈ labelActions name held labels) : action.operation = .createType := by
  induction labels with
  | nil => cases member
  | cons label labels induction =>
      unfold labelActions at member
      split at member
      · exact induction member
      · rcases List.mem_cons.mp member with rfl | member
        · rfl
        · exact induction member

theorem operation_of_mem_enumPlan {enumType : EnumType}
    (member : action ∈ (change.enumPlan enumType).1) : action.operation = .createType := by
  unfold enumPlan at member
  split at member
  · rw [List.mem_singleton.mp member]
    rfl
  · split at member
    · cases member
    · split at member
      · exact operation_of_mem_labelActions member
      · cases member

theorem of_mem_securingActions {named : List String} {policies : List Policy}
    (member : action ∈ change.securingActions named policies) :
    (∃ table, action = .enableRowLevelSecurity table) ∨
      ∃ policy, action = .createPolicy policy := by
  induction policies generalizing named with
  | nil => cases member
  | cons policy policies induction =>
      unfold securingActions at member
      split at member
      · rcases List.mem_cons.mp member with rfl | member
        · exact .inr ⟨policy, rfl⟩
        · exact induction member
      · rcases List.mem_cons.mp member with rfl | member
        · exact .inl ⟨policy.table, rfl⟩
        · rcases List.mem_cons.mp member with rfl | member
          · exact .inr ⟨policy, rfl⟩
          · exact induction member

theorem of_mem_standingSteps {α : Type} {objects : List α} {standing : α → Standing α}
    {create : α → Action}
    (member : step ∈ objects.flatMap fun object => (standing object).steps (create object)) :
    ∃ object ∈ objects, step = .routed (create object) := by
  rcases List.mem_flatMap.mp member with ⟨object, objectMember, member⟩
  cases found : standing object with
  | added =>
      rw [found] at member
      exact ⟨object, objectMember, List.mem_singleton.mp member⟩
  | unchanged =>
      rw [found] at member
      cases member
  | changed old =>
      rw [found] at member
      cases member

theorem of_mem_leadingSteps (member : step ∈ change.leadingSteps) :
    step.phase = .creation ∧
      step.action.operation ∈ [.createExtension, .createType, .createSequence] := by
  rcases List.mem_append.mp member with member | member
  · rcases List.mem_append.mp member with member | member
    · rcases List.mem_map.mp member with ⟨extension, _, rfl⟩
      exact ⟨rfl, List.mem_cons_self⟩
    · rcases List.mem_flatMap.mp member with ⟨enumType, _, member⟩
      rcases List.mem_map.mp member with ⟨action, planned, rfl⟩
      have operation := operation_of_mem_enumPlan planned
      refine ⟨congrArg Operation.phase operation, ?_⟩
      rw [PlanStep.routed, operation]
      exact List.mem_cons_of_mem _ List.mem_cons_self
  · rcases of_mem_standingSteps member with ⟨sequence, _, rfl⟩
    exact ⟨rfl, List.mem_cons_of_mem _ (List.mem_cons_of_mem _ List.mem_cons_self)⟩

theorem of_mem_trailingSteps (member : step ∈ change.trailingSteps) :
    step.phase = .modification ∧ step.action.operation.phase = .modification := by
  rcases List.mem_append.mp member with member | member
  · rcases List.mem_append.mp member with member | member
    · rcases List.mem_append.mp member with member | member
      · rcases of_mem_standingSteps member with ⟨view, _, rfl⟩
        exact ⟨rfl, rfl⟩
      · rcases of_mem_standingSteps member with ⟨function, _, rfl⟩
        exact ⟨rfl, rfl⟩
    · rcases of_mem_standingSteps member with ⟨trigger, _, rfl⟩
      exact ⟨rfl, rfl⟩
  · rcases List.mem_map.mp member with ⟨action, secured, rfl⟩
    rcases of_mem_securingActions secured with ⟨table, rfl⟩ | ⟨policy, rfl⟩
    · exact ⟨rfl, rfl⟩
    · exact ⟨rfl, rfl⟩

theorem operation_of_mem_trailingSteps (member : step ∈ change.trailingSteps) :
    step.action.operation ∈ [.createView, .createFunction, .createTrigger, .createPolicy] ∧
      (step ∈ change.triggerSteps ∨ step.action.operation ≠ .createTrigger) := by
  rcases List.mem_append.mp member with member | member
  · rcases List.mem_append.mp member with member | member
    · rcases List.mem_append.mp member with member | member
      · rcases of_mem_standingSteps member with ⟨view, _, rfl⟩
        simp [PlanStep.routed, Action.operation]
      · rcases of_mem_standingSteps member with ⟨function, _, rfl⟩
        simp [PlanStep.routed, Action.operation]
    · refine ⟨?_, .inl member⟩
      rcases of_mem_standingSteps member with ⟨trigger, _, rfl⟩
      simp [PlanStep.routed, Action.operation]
  · rcases List.mem_map.mp member with ⟨action, secured, rfl⟩
    rcases of_mem_securingActions secured with ⟨table, rfl⟩ | ⟨policy, rfl⟩
    · simp [PlanStep.routed, Action.operation]
    · simp [PlanStep.routed, Action.operation]

/-! ## Phases of a plan -/

theorem actionsIn_eq_nil {phase : Phase} {steps : List PlanStep}
    (other : ∀ step ∈ steps, step.phase ≠ phase) : actionsIn phase steps = [] := by
  rw [actionsIn, List.filter_eq_nil_iff.mpr fun step member => by simpa using other step member,
    List.map_nil]

theorem actionsIn_eq_map {phase : Phase} {steps : List PlanStep}
    (same : ∀ step ∈ steps, step.phase = phase) :
    actionsIn phase steps = steps.map (·.action) := by
  rw [actionsIn, List.filter_eq_self.mpr fun step member => by simpa using same step member]

def creationOrder (change : SchemaChange) : List Table :=
  inDependencyOrder change.defaultSchema change.createdTables

def dropOrder (change : SchemaChange) : List Table :=
  (inDependencyOrder change.defaultSchema change.droppedTables).reverse

def keptActions (change : SchemaChange) (capabilities : Capabilities) (comments : Bool)
    (phase : Phase) : List Action :=
  change.keptTables.flatMap fun pair => actionsIn phase (pair.steps capabilities comments)

theorem creationSteps_eq :
    change.creationSteps capabilities comments =
      (change.creationOrder.flatMap (creationActions capabilities comments)).map .routed :=
  List.map_flatMap.symm

theorem dropSteps_eq :
    change.dropSteps = (change.dropOrder.map fun table => .dropTable table.qualifiedName).map
      .routed := by
  rw [List.map_map]
  rfl

theorem keptActions_eq_nil {phase : Phase} (outside : phase = .creation ∨ phase = .tableRemoval) :
    change.keptActions capabilities comments phase = [] := by
  refine List.flatMap_eq_nil_iff.mpr fun pair _ => actionsIn_eq_nil fun step member same => ?_
  have alteration := TableChange.isAlteration_of_mem_steps step member
  rcases alteration.phase with own | inPlace
  · rcases outside with rfl | rfl
    · exact alteration.notCreation (own.symm.trans same)
    · exact alteration.notTableRemoval (own.symm.trans same)
  · rw [inPlace] at same
    rcases outside with rfl | rfl <;> cases same

theorem actionsIn_steps (phase : Phase) :
    actionsIn phase (change.steps capabilities comments) =
      match phase with
      | .creation => change.leadingSteps.map (·.action) ++ change.creationOrder.map .createTable
      | .addition => (change.creationOrder.flatMap (·.indexes)).map .createIndex
          ++ change.keptActions capabilities comments .addition
      | .modification => change.creationOrder.flatMap (Table.completion capabilities comments)
          ++ change.keptActions capabilities comments .modification
          ++ change.trailingSteps.map (·.action)
      | .removal => change.keptActions capabilities comments .removal
      | .tableRemoval => change.dropOrder.map fun table => .dropTable table.qualifiedName := by
  have leading : actionsIn phase change.leadingSteps =
      if Phase.creation = phase then change.leadingSteps.map (·.action) else [] := by
    split
    · exact actionsIn_eq_map fun step member => (of_mem_leadingSteps member).1.trans ‹_›
    · exact actionsIn_eq_nil fun step member same =>
        ‹¬_› ((of_mem_leadingSteps member).1.symm.trans same)
  have trailing : actionsIn phase change.trailingSteps =
      if Phase.modification = phase then change.trailingSteps.map (·.action) else [] := by
    split
    · exact actionsIn_eq_map fun step member => (of_mem_trailingSteps member).1.trans ‹_›
    · exact actionsIn_eq_nil fun step member same =>
        ‹¬_› ((of_mem_trailingSteps member).1.symm.trans same)
  have dropped : actionsIn phase change.dropSteps = if Phase.tableRemoval = phase then
      change.dropOrder.map fun table => .dropTable table.qualifiedName else [] := by
    rw [dropSteps_eq]
    exact actionsIn_map_create (fun table : Table => .dropTable table.qualifiedName) .tableRemoval
      fun _ => rfl
  have kept : change.keptTables.flatMap (fun pair => actionsIn phase
      (pair.steps capabilities comments)) = change.keptActions capabilities comments phase := rfl
  rw [steps_eq]
  simp only [actionsIn_append, leading, trailing, dropped, creationSteps_eq,
    actionsIn_creationActions, actionsIn_flatMap, kept]
  cases phase with
  | creation => simp [keptActions_eq_nil (.inl rfl)]
  | addition => simp
  | modification => simp
  | removal => simp
  | tableRemoval => simp [keptActions_eq_nil (.inr rfl)]

end SchemaChange

end SchemaDdl
