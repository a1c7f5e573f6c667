import SchemaDdl.Capability.BuiltIn
import SchemaDdl.Proofs.Plan.Order
import SchemaDdl.Proofs.Precedence

/-!
# Triggers of tables that are built anew

To build a table anew, SQLite drops the old one, and its indexes and triggers go with it. The
indexes are built again before the recreation ends, but triggers are compared apart from tables: one
is created after the recreation exactly when the old version has none of its name on the table. A
trigger of both versions is lost.
-/

namespace SchemaDdl

/-! ## Indexes -/

/-- Whether a recreation builds all indexes of the new version after it dropped the old table. -/
def TableChange.KeepsIndexes (change : TableChange) (transactional : Bool) : Prop :=
  ∃ before after, change.recreationSteps transactional = before ++ .dropOld :: after ∧
    ∀ index ∈ change.new.indexes, .createIndex index ∈ after

theorem TableChange.keepsIndexes (change : TableChange) (transactional : Bool) :
    change.KeepsIndexes transactional := by
  refine ⟨[RecreationStep.deferForeignKeys]
      ++ (if transactional then [RecreationStep.begin] else []) ++ [RecreationStep.createShadow]
      ++ (if change.copiedColumns.isEmpty then [] else [RecreationStep.copy change.copiedColumns]),
    .renameShadow :: (change.new.indexes.map .createIndex
      ++ if transactional then [.commit] else []), ?_, fun index member => ?_⟩
  · simp [recreationSteps]
  · exact List.mem_cons_of_mem _ (List.mem_append_left _ (List.mem_map_of_mem member))

/-! ## Triggers -/

namespace SchemaChange

variable {change : SchemaChange} {capabilities : Capabilities} {comments : Bool} {action : Action}
  {trigger : Trigger}

theorem standing_eq_added_iff {α : Type} [BEq α] {olds : List α} {means : α → Bool} {new : α} :
    Standing.among olds means new = .added ↔ ∀ old ∈ olds, means old = false := by
  unfold Standing.among
  cases found : olds.find? means with
  | none => simpa using List.find?_eq_none.mp found
  | some old =>
      have member := List.mem_of_find?_eq_some found
      have means := List.find?_some found
      constructor
      · intro added
        dsimp only at added
        split at added <;> cases added
      · intro none
        rw [none old member] at means
        cases means

theorem createTrigger_mem_triggerSteps :
    .routed (.createTrigger trigger) ∈ change.triggerSteps ↔
      trigger ∈ change.new.triggers ∧
        ∀ other ∈ change.old.triggers, change.sameTrigger other trigger = false := by
  unfold triggerSteps
  rw [List.mem_flatMap, ← standing_eq_added_iff]
  constructor
  · intro holds
    rcases holds with ⟨held, member, stepMember⟩
    cases standing : change.triggerStanding held with
    | added =>
        rw [standing] at stepMember
        cases List.mem_singleton.mp stepMember
        exact ⟨member, standing⟩
    | unchanged =>
        rw [standing] at stepMember
        cases stepMember
    | changed old =>
        rw [standing] at stepMember
        cases stepMember
  · intro holds
    refine ⟨trigger, holds.1, ?_⟩
    rw [triggerStanding, holds.2]
    exact List.mem_cons_self

theorem operation_of_mem_keptActions {phase : Phase}
    (member : action ∈ change.keptActions capabilities comments phase) :
    action.operation ∉ [.createView, .createFunction, .createTrigger, .createPolicy] := by
  have elsewhere (operation : Operation) (part : TableChange.changesPart operation = true) :
      operation ∉ [.createView, .createFunction, .createTrigger, .createPolicy] := by
    cases operation <;> first | decide | cases part
  rcases List.mem_flatMap.mp member with ⟨pair, _, member⟩
  rcases TableChange.mem_actions_or_index_of_mem_steps _ (mem_actionsIn.mp member) with
    member | ⟨index, drops | creates⟩
  · cases TableChange.alters_of_mem_actions _ member with
    | part part => exact elsewhere _ part
    | _ => simp [Action.operation]
  · rw [show action = .dropIndex index from drops]
    simp [Action.operation]
  · rw [show action = .createIndex index from creates]
    simp [Action.operation]

theorem phase_ne_modification {phase : Phase}
    (member : action ∈ actionsIn phase (change.steps capabilities comments))
    (other : phase ≠ .modification) : action.operation.phase ≠ .modification := by
  rwa [operation_phase_of_mem_actionsIn other action member]

/-- Among all actions of a plan, triggers are created and tables are built anew only by changes in
place, and of these the tables come first. -/
theorem orderedActions_eq_trailing :
    ∃ front back, orderedActions (change.steps capabilities comments) =
        front ++ (change.trailingSteps.map (·.action) ++ back) ∧
      (∀ trigger, .createTrigger trigger ∉ front ++ back) ∧
      ∀ pair, .recreateTable pair ∉ change.trailingSteps.map (·.action) ++ back := by
  have modification := @actionsIn_steps change capabilities comments .modification
  refine ⟨actionsIn .creation (change.steps capabilities comments)
      ++ actionsIn .addition (change.steps capabilities comments)
      ++ (change.creationOrder.flatMap (Table.completion capabilities comments)
        ++ change.keptActions capabilities comments .modification),
    actionsIn .removal (change.steps capabilities comments)
      ++ actionsIn .tableRemoval (change.steps capabilities comments), ?_, ?_, ?_⟩
  · rw [orderedActions_eq, modification]
    simp only [List.append_assoc]
  · intro trigger member
    simp only [List.mem_append] at member
    rcases member with ((created | added) | completes | kept) | removed | dropped
    · exact phase_ne_modification created nofun rfl
    · exact phase_ne_modification added nofun rfl
    · rcases List.mem_flatMap.mp completes with ⟨table, _, member⟩
      rcases Table.of_mem_completion member with
        ⟨_, equal⟩ | ⟨_, equal⟩ | ⟨_, _, equal⟩ <;> cases equal
    · exact operation_of_mem_keptActions kept
        (List.mem_cons_of_mem _ (List.mem_cons_of_mem _ List.mem_cons_self))
    · exact phase_ne_modification removed nofun rfl
    · exact phase_ne_modification dropped nofun rfl
  · intro pair member
    simp only [List.mem_append] at member
    rcases member with trailing | removed | dropped
    · rcases List.mem_map.mp trailing with ⟨step, stepMember, same⟩
      have trails := (operation_of_mem_trailingSteps stepMember).1
      rw [same] at trails
      simp [Action.operation] at trails
    · exact phase_ne_modification removed nofun rfl
    · exact phase_ne_modification dropped nofun rfl

theorem createTrigger_mem_trailingSteps :
    .createTrigger trigger ∈ change.trailingSteps.map (·.action) ↔
      trigger ∈ change.new.triggers ∧
        ∀ other ∈ change.old.triggers, change.sameTrigger other trigger = false := by
  rw [← createTrigger_mem_triggerSteps, List.mem_map]
  constructor
  · intro holds
    rcases holds with ⟨step, member, action⟩
    rcases (operation_of_mem_trailingSteps member).2 with ofTrigger | other
    · rcases of_mem_standingSteps ofTrigger with ⟨_, _, rfl⟩
      exact action ▸ ofTrigger
    · exact absurd (congrArg Action.operation action) other
  · intro member
    exact ⟨_, List.mem_append_left _ (List.mem_append_right _ member), rfl⟩

theorem createTrigger_mem_after_iff {before after : List Action} {pair : TableChange}
    (split : orderedActions (change.steps capabilities comments) =
      before ++ .recreateTable pair :: after) :
    .createTrigger trigger ∈ after ↔
      trigger ∈ change.new.triggers ∧
        ∀ other ∈ change.old.triggers, change.sameTrigger other trigger = false := by
  rcases @orderedActions_eq_trailing change capabilities comments with
    ⟨front, back, whole, quiet, last⟩
  rw [← createTrigger_mem_trailingSteps]
  constructor
  · intro member
    have found : .createTrigger trigger ∈
        front ++ (change.trailingSteps.map (·.action) ++ back) := by
      rw [← whole, split]
      exact List.mem_append_right _ (List.mem_cons_of_mem _ member)
    simp only [List.mem_append] at found
    rcases found with found | found | found
    · exact absurd (List.mem_append_left _ found) (quiet trigger)
    · exact found
    · exact absurd (List.mem_append_right _ found) (quiet trigger)
  · intro member
    rcases exists_append_of_not_mem (whole.symm.trans split) (last pair) with ⟨middle, rfl⟩
    exact List.mem_append_right _ (List.mem_append_left _ member)

theorem recreateTable_mem_orderedActions {pair : TableChange} :
    .recreateTable pair ∈ orderedActions (change.steps capabilities comments) ↔
      pair ∈ change.keptTables ∧ pair.requiresRecreation capabilities = true := by
  constructor
  · intro member
    rcases List.mem_flatMap.mp member with ⟨phase, _, member⟩
    have inPlace : phase = .modification := by
      by_contra other
      exact phase_ne_modification member other rfl
    rw [inPlace, actionsIn_steps] at member
    simp only [List.mem_append] at member
    rcases member with (completes | kept) | trails
    · rcases List.mem_flatMap.mp completes with ⟨table, _, member⟩
      rcases Table.of_mem_completion member with
        ⟨_, equal⟩ | ⟨_, equal⟩ | ⟨_, _, equal⟩ <;> cases equal
    · rcases List.mem_flatMap.mp kept with ⟨other, otherKept, member⟩
      rcases TableChange.requiresRecreation_of_mem_steps rfl (mem_actionsIn.mp member) with
        ⟨rfl, requires⟩
      exact ⟨otherKept, requires⟩
    · rcases List.mem_map.mp trails with ⟨step, stepMember, rebuilds⟩
      have trails := (operation_of_mem_trailingSteps stepMember).1
      rw [rebuilds] at trails
      simp [Action.operation] at trails
  · intro holds
    rcases holds with ⟨kept, requires⟩
    refine mem_orderedActions.mpr ⟨.routed (.recreateTable pair), ?_, rfl⟩
    have member : .routed (.recreateTable pair) ∈ pair.steps capabilities comments := by
      rw [TableChange.steps_of_requiresRecreation requires]
      exact List.mem_cons_self
    rw [steps_eq]
    simp only [List.mem_append, List.mem_flatMap]
    exact .inl (.inl (.inr ⟨pair, kept, member⟩))

/-- Whether every trigger of a table that actions build anew is created by a later one of them. -/
def KeepsTriggers (change : SchemaChange) (actions : List Action) : Prop :=
  ∀ before pair after, actions = before ++ .recreateTable pair :: after →
    ∀ trigger ∈ change.new.triggers, change.same trigger.table pair.new.qualifiedName = true →
      .createTrigger trigger ∈ after

/-- Whether all triggers of the tables that are built anew are new. -/
def RebuiltTriggersNew (change : SchemaChange) (capabilities : Capabilities) : Prop :=
  ∀ pair ∈ change.keptTables, pair.requiresRecreation capabilities = true →
    ∀ trigger ∈ change.new.triggers, change.same trigger.table pair.new.qualifiedName = true →
      ∀ other ∈ change.old.triggers, change.sameTrigger other trigger = false

theorem keepsTriggers_iff :
    change.KeepsTriggers (orderedActions (change.steps capabilities comments)) ↔
      change.RebuiltTriggersNew capabilities := by
  constructor
  · intro keeps pair kept requires trigger member attached
    have rebuilds := (@recreateTable_mem_orderedActions change capabilities comments pair).mpr
      ⟨kept, requires⟩
    rcases List.append_of_mem rebuilds with ⟨before, after, split⟩
    have created := keeps before pair after split trigger member attached
    exact ((createTrigger_mem_after_iff split).mp created).2
  · intro without before pair after split trigger member attached
    have rebuilds : .recreateTable pair ∈ orderedActions (change.steps capabilities comments) :=
      split ▸ List.mem_append_right _ List.mem_cons_self
    rcases recreateTable_mem_orderedActions.mp rebuilds with ⟨kept, requires⟩
    exact (createTrigger_mem_after_iff split).mpr
      ⟨member, without pair kept requires trigger member attached⟩

end SchemaChange

namespace Target

variable {target : Target} {old new : Schema} {plan : MigrationPlan}

/-- A plan builds the indexes of a table again when it builds the table anew, and it keeps the
triggers of all such tables exactly when the old version has none of their names on them. -/
theorem plan_keepsTriggers_iff (planned : target.plan old new = .ok plan) :
    target.statements (target.orderedActions old new) = .ok plan.statements ∧
      (∀ pair, .recreateTable pair ∈ target.orderedActions old new →
        pair.KeepsIndexes (target.supports .transactionalDdl)) ∧
      ((target.schemaChange old new).KeepsTriggers (target.orderedActions old new) ↔
        (target.schemaChange old new).RebuiltTriggersNew target.capabilities) :=
  ⟨(plan_eq_ok_iff.mp planned).1, fun pair _ => pair.keepsIndexes _,
    SchemaChange.keepsTriggers_iff⟩

end Target

/-! ## An example -/

namespace TriggerExample

def pages (type : String) : Table where
  name := "pages"
  columns := [{ name := "views", dataType := type }]
  indexes :=
    [{ name := "by_views", table := .plain "pages", keys := [{ target := .column "views" }] }]

def touch : Trigger where
  name := "touch"
  table := .plain "pages"
  timing := .after
  events := [.insert]
  body := ["SELECT 1"]

def old (triggers : List Trigger) : Schema :=
  { tables := [pages "integer"], triggers }

def new : Schema :=
  { tables := [pages "bigint"], triggers := [touch] }

def rebuilt : TableChange :=
  ⟨pages "integer", pages "bigint"⟩

end TriggerExample

open TriggerExample in
/-- A new trigger is created when its table has been built anew. -/
theorem plan_keepsTriggers_pages :
    ∃ plan, Target.plan ⟨Capabilities.sqlite, {}⟩ (old []) new = .ok plan ∧
      plan.statements.map (·.operation) = [.recreateTable, .createTrigger] ∧
      rebuilt.KeepsIndexes true ∧
      SchemaChange.KeepsTriggers ⟨old [], new, "main"⟩
        (Target.orderedActions ⟨Capabilities.sqlite, {}⟩ (old []) new) := by
  have succeeds : ∃ plan, Target.plan ⟨Capabilities.sqlite, {}⟩ (old []) new = .ok plan ∧
      plan.statements.map (·.operation) = [.recreateTable, .createTrigger] := by
    decide +kernel
  rcases succeeds with ⟨plan, planned, operations⟩
  rcases Target.plan_keepsTriggers_iff planned with ⟨_, indexes, triggers⟩
  have rebuilds : .recreateTable rebuilt ∈
      Target.orderedActions ⟨Capabilities.sqlite, {}⟩ (old []) new := List.mem_cons_self
  refine ⟨plan, planned, operations, indexes rebuilt rebuilds, triggers.mpr ?_⟩
  intro pair _ _ trigger _ _
  exact List.forall_mem_nil _

open TriggerExample in
/-- A trigger of both versions is on the table that is built anew, and nothing creates it again. -/
theorem plan_loses_trigger_pages :
    ∃ plan, Target.plan ⟨Capabilities.sqlite, {}⟩ (old [touch]) new = .ok plan ∧
      plan.statements.map (·.operation) = [.recreateTable] ∧
      ¬SchemaChange.KeepsTriggers ⟨old [touch], new, "main"⟩
        (Target.orderedActions ⟨Capabilities.sqlite, {}⟩ (old [touch]) new) := by
  refine exists_ok_and_of (by decide +kernel) fun keeps => ?_
  have actions : Target.orderedActions ⟨Capabilities.sqlite, {}⟩ (old [touch]) new =
      [] ++ .recreateTable rebuilt :: [] := rfl
  cases keeps _ _ _ actions touch List.mem_cons_self (by decide)

end SchemaDdl
