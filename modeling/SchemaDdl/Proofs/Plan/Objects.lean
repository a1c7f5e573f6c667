import SchemaDdl.Proofs.Plan.Creation
import SchemaDdl.Proofs.Plan.Emptiness
import SchemaDdl.Proofs.Plan.Triggers

/-!
# Objects beside tables in a plan

A plan creates the objects that are new, and warns of those that it would have to change or drop. It
says nothing of extensions and types and sequences that are gone, of extensions that move, and of
the owners of new sequences.
-/

namespace SchemaDdl

/-! ## What a plan accounts for -/

/-- The operation that creates objects of a kind. -/
def ObjectKind.operation : ObjectKind → Operation
  | .sequence => .createSequence
  | .view => .createView
  | .function => .createFunction
  | .trigger => .createTrigger
  | .policy => .createPolicy

/-- The operation that creates the object that a reason is about. -/
def ManualReason.operation : ManualReason → Operation
  | .relabelled => .createType
  | .changed kind | .removed kind => kind.operation

/-- Whether a plan names an object, with the operation that creates its kind, in a statement or in a
warning. -/
def MigrationPlan.Names (plan : MigrationPlan) (operation : Operation) (object : String) : Prop :=
  (∃ statement ∈ plan.statements, statement.operation = operation ∧ object ∈ statement.affected) ∨
    ∃ reason, .manualMigration object reason ∈ plan.warnings ∧ reason.operation = operation

structure AccountsFor {α : Type} (named : String → Prop) (same : α → α → Bool)
    (label : α → String) (differ : α → α → Prop) (olds news : List α) : Prop where
  added : ∀ new ∈ news, (∀ old ∈ olds, same old new = false) → named (label new)
  changed : ∀ old ∈ olds, ∀ new ∈ news, same old new = true → differ old new → named (label new)
  removed : ∀ old ∈ olds, (∀ new ∈ news, same old new = false) → named (label old)

/-- Whether no two objects of a kind in a schema have the same name. -/
structure Schema.ObjectsApart (defaultSchema : String) (schema : Schema) : Prop where
  extensions : Apart (·.name == ·.name) schema.extensions
  enums : NamedApart defaultSchema EnumType.name schema.enums
  sequences : NamedApart defaultSchema Sequence.name schema.sequences
  functions : NamedApart defaultSchema StoredFunction.name schema.functions
  views : NamedApart defaultSchema View.name schema.views
  rules : schema.RulesApart defaultSchema

/-- Whether types and sequences have names that are told apart by their texts. -/
structure Schema.ObjectsRead (schema : Schema) : Prop where
  enums : ∀ enumType ∈ schema.enums, enumType.name.FromText
  sequences : ∀ sequence ∈ schema.sequences, sequence.name.FromText

/-- Whether a plan accounts for all objects beside tables, and gives every new sequence to its
owner. -/
structure Target.AccountsForObjects (target : Target) (change : SchemaChange)
    (plan : MigrationPlan) : Prop where
  extensions : AccountsFor (plan.Names .createExtension) (·.name == ·.name) (·.name) (· ≠ ·)
    change.old.extensions change.new.extensions
  enums : AccountsFor (plan.Names .createType) (fun old new => change.same old.name new.name)
    (·.name.text) (·.values ≠ ·.values) change.old.enums change.new.enums
  sequences : AccountsFor (plan.Names .createSequence)
    (fun old new => change.same old.name new.name) (·.name.text) (· ≠ ·) change.old.sequences
    change.new.sequences
  views : AccountsFor (plan.Names .createView) (fun old new => change.same old.name new.name)
    (·.name.text) (· ≠ ·) change.old.views change.new.views
  functions : AccountsFor (plan.Names .createFunction)
    (fun old new => change.same old.name new.name) (·.name.text) (· ≠ ·) change.old.functions
    change.new.functions
  triggers : AccountsFor (plan.Names .createTrigger) change.sameTrigger Trigger.location (· ≠ ·)
    change.old.triggers change.new.triggers
  policies : AccountsFor (plan.Names .createPolicy) change.samePolicy Policy.location (· ≠ ·)
    change.old.policies change.new.policies
  owned : ∀ sequence ∈ change.new.sequences,
    (∀ old ∈ change.old.sequences, change.same old.name sequence.name = false) →
      ∀ owner ∈ sequence.ownedBy, ∃ statement ∈ plan.statements,
        target.statement (.ownSequence sequence.name owner) = .ok statement

/-- Whether extensions stay as they are, types and sequences stay, and no new sequence has an
owner. -/
structure SchemaChange.ObjectsStay (change : SchemaChange) : Prop where
  extensions : ∀ old ∈ change.old.extensions, old ∈ change.new.extensions
  enums : ∀ old ∈ change.old.enums, ∃ new ∈ change.new.enums, change.same old.name new.name = true
  sequences : ∀ old ∈ change.old.sequences,
    ∃ new ∈ change.new.sequences, change.same old.name new.name = true
  unowned : ∀ sequence ∈ change.new.sequences,
    (∀ old ∈ change.old.sequences, change.same old.name sequence.name = false) →
      sequence.ownedBy = none

/-! ## What is named -/

namespace SchemaChange

variable {change : SchemaChange} {capabilities : Capabilities} {comments : Bool} {action : Action}
  {step : PlanStep} {object : String} {reason : ManualReason}

theorem exists_leadingStep (member : action ∈ (change.steps capabilities comments).map (·.action))
    (leads : action.operation ∈ [.createExtension, .createType, .createSequence]) :
    ∃ step ∈ change.leadingSteps, step.action = action := by
  rcases List.mem_map.mp member with ⟨step, stepMember, rfl⟩
  refine ⟨step, ?_, rfl⟩
  rcases Operation.of_leads leads with ⟨creation, noTable⟩
  rw [steps_eq] at stepMember
  simp only [List.mem_append] at stepMember
  rcases stepMember with (((leading | created) | kept) | dropped) | trailing
  · exact leading
  · rw [creationSteps_eq] at created
    rcases List.mem_map.mp created with ⟨action, actionMember, rfl⟩
    rcases List.mem_flatMap.mp actionMember with ⟨table, _, ofTable⟩
    rcases List.mem_append.mp ofTable with built | completes
    · rcases List.mem_cons.mp built with rfl | indexed
      · exact absurd rfl noTable
      · rcases List.mem_map.mp indexed with ⟨index, _, rfl⟩
        cases creation
    · cases (phase_of_mem_completion completes).symm.trans creation
  · rcases List.mem_flatMap.mp kept with ⟨pair, _, kept⟩
    exact absurd creation (TableChange.isAlteration_of_mem_steps step kept).notCreation
  · rcases List.mem_map.mp dropped with ⟨table, _, rfl⟩
    cases creation
  · rw [(of_mem_trailingSteps trailing).2] at creation
    cases creation

theorem action_of_mem_leadingSteps (member : step ∈ change.leadingSteps) :
    (∃ extension ∈ change.new.extensions,
        (∀ old ∈ change.old.extensions, (old.name == extension.name) = false) ∧
          step.action = .createExtension extension) ∨
      (∃ enumType ∈ change.new.enums, step.action ∈ (change.enumPlan enumType).1) ∨
      ∃ sequence ∈ change.new.sequences, step.action = .createSequence sequence := by
  rcases List.mem_append.mp member with member | member
  · rcases List.mem_append.mp member with member | member
    · rcases List.mem_map.mp member with ⟨extension, found, rfl⟩
      rcases List.mem_filter.mp found with ⟨member, new⟩
      exact .inl ⟨extension, member, by simpa using new, rfl⟩
    · rcases List.mem_flatMap.mp member with ⟨enumType, enumMember, member⟩
      rcases List.mem_map.mp member with ⟨action, planned, rfl⟩
      exact .inr (.inl ⟨enumType, enumMember, planned⟩)
  · rcases of_mem_standingSteps member with ⟨sequence, sequenceMember, rfl⟩
    exact .inr (.inr ⟨sequence, sequenceMember, rfl⟩)

theorem affected_of_mem_labelActions {name : QualifiedName} {held labels : List String}
    (member : action ∈ labelActions name held labels) : action.affected = [name.text] := by
  induction labels with
  | nil => cases member
  | cons label labels induction =>
      unfold labelActions at member
      split at member
      · exact induction member
      · rcases List.mem_cons.mp member with rfl | member
        · rfl
        · exact induction member

theorem affected_of_mem_enumPlan {enumType : EnumType}
    (member : action ∈ (change.enumPlan enumType).1) :
    action.affected = [enumType.name.text] := by
  unfold enumPlan at member
  split at member
  · rw [List.mem_singleton.mp member]
    rfl
  · split at member
    · cases member
    · split at member
      · exact affected_of_mem_labelActions member
      · cases member

theorem of_mem_standingWarnings {α : Type} {objects : List α} {standing : α → Standing α}
    {kind : ObjectKind} {label : α → String} {warning : PlanWarning}
    (member : warning ∈ objects.flatMap fun object =>
      (standing object).warnings kind (label object)) :
    ∃ object ∈ objects, warning = .manualMigration (label object) (.changed kind) := by
  rcases List.mem_flatMap.mp member with ⟨object, objectMember, member⟩
  cases found : standing object with
  | changed old =>
      rw [found] at member
      exact ⟨object, objectMember, List.mem_singleton.mp member⟩
  | added =>
      rw [found] at member
      cases member
  | unchanged =>
      rw [found] at member
      cases member

theorem operation_of_mem_standingWarnings {α : Type} {objects : List α}
    {standing : α → Standing α} {kind : ObjectKind} {label : α → String}
    (member : .manualMigration object reason ∈ objects.flatMap fun object =>
      (standing object).warnings kind (label object)) : reason.operation = kind.operation := by
  rcases of_mem_standingWarnings member with ⟨_, _, equal⟩
  cases equal
  rfl

theorem operation_of_mem_removals {α : Type} {objects : List α} {kind : ObjectKind}
    {label : α → String}
    (member : .manualMigration object reason ∈ objects.map fun object =>
      PlanWarning.manualMigration (label object) (.removed kind)) :
    reason.operation = kind.operation := by
  rcases List.mem_map.mp member with ⟨_, _, equal⟩
  cases equal
  rfl

theorem operation_of_mem_ruleWarnings
    (member : .manualMigration object reason ∈ change.changeWarnings ++ change.removalWarnings) :
    reason.operation ∈ [.createView, .createFunction, .createTrigger, .createPolicy] := by
  have kind : ∃ kind, kind ≠ ObjectKind.sequence ∧ reason.operation = kind.operation := by
    rcases List.mem_append.mp member with member | member
    · simp only [changeWarnings, List.mem_append] at member
      rcases member with ((view | function) | trigger) | policy
      · exact ⟨.view, by decide, operation_of_mem_standingWarnings view⟩
      · exact ⟨.function, by decide, operation_of_mem_standingWarnings function⟩
      · exact ⟨.trigger, by decide, operation_of_mem_standingWarnings trigger⟩
      · exact ⟨.policy, by decide, operation_of_mem_standingWarnings policy⟩
    · simp only [removalWarnings, List.flatten_cons, List.flatten_nil, List.append_nil,
        List.mem_append] at member
      rcases member with view | function | trigger | policy
      · exact ⟨.view, by decide, operation_of_mem_removals view⟩
      · exact ⟨.function, by decide, operation_of_mem_removals function⟩
      · exact ⟨.trigger, by decide, operation_of_mem_removals trigger⟩
      · exact ⟨.policy, by decide, operation_of_mem_removals policy⟩
  rcases kind with ⟨kind, other, same⟩
  rw [same]
  cases kind with
  | sequence => exact absurd rfl other
  | view => decide
  | function => decide
  | trigger => decide
  | policy => decide

theorem of_mem_enumWarnings {warning : PlanWarning} (member : warning ∈ change.enumWarnings) :
    ∃ enumType ∈ change.new.enums,
      warning = .manualMigration enumType.name.text .relabelled := by
  rcases List.mem_flatMap.mp member with ⟨enumType, enumMember, member⟩
  refine ⟨enumType, enumMember, ?_⟩
  unfold enumPlan at member
  split at member
  · cases member
  · split at member
    · cases member
    · split at member
      · cases member
      · exact List.mem_singleton.mp member

theorem of_mem_warnings (member : .manualMigration object reason ∈ change.warnings) :
    (∃ enumType ∈ change.new.enums, enumType.name.text = object ∧ reason = .relabelled) ∨
      (∃ sequence ∈ change.new.sequences,
        sequence.name.text = object ∧ reason = .changed .sequence) ∨
      reason.operation ∈ [.createView, .createFunction, .createTrigger, .createPolicy] := by
  unfold warnings at member
  simp only [List.mem_append] at member
  rcases member with (((((enum | sequence) | table) | cycle) | column) | changed) | removed
  · rcases of_mem_enumWarnings enum with ⟨enumType, enumMember, equal⟩
    cases equal
    exact .inl ⟨enumType, enumMember, rfl, rfl⟩
  · rcases of_mem_standingWarnings sequence with ⟨object, objectMember, equal⟩
    cases equal
    exact .inr (.inl ⟨object, objectMember, rfl, rfl⟩)
  · rcases List.mem_map.mp table with ⟨_, _, equal⟩
    cases equal
  · unfold cycleWarnings at cycle
    split at cycle
    · cases cycle
    · cases List.mem_singleton.mp cycle
  · rcases List.mem_flatMap.mp column with ⟨pair, _, column⟩
    rcases List.mem_map.mp column with ⟨_, _, equal⟩
    cases equal
  · exact .inr (.inr (operation_of_mem_ruleWarnings (List.mem_append_left _ changed)))
  · exact .inr (.inr (operation_of_mem_ruleWarnings (List.mem_append_right _ removed)))

end SchemaChange

/-! ## Objects of each kind -/

namespace Target

variable {target : Target} {old new : Schema} {plan : MigrationPlan} {object : String}

theorem names_of_action (planned : target.plan old new = .ok plan) {action : Action}
    (member : ⟨action.operation.phase, action⟩ ∈
      (target.schemaChange old new).steps target.capabilities target.options.comments)
    (names : object ∈ action.affected) : plan.Names action.operation object := by
  rcases exists_statement_of_plan planned (List.mem_map_of_mem member) with
    ⟨statement, statementMember, written⟩
  exact .inl ⟨statement, statementMember, operation_of_statement written,
    affected_of_statement written ▸ names⟩

theorem names_of_warning (planned : target.plan old new = .ok plan) {reason : ManualReason}
    (member : .manualMigration object reason ∈ (target.schemaChange old new).warnings) :
    plan.Names reason.operation object :=
  .inr ⟨reason, (plan_eq_ok_iff.mp planned).2 ▸ member, rfl⟩

theorem of_names (planned : target.plan old new = .ok plan) {operation : Operation}
    (names : plan.Names operation object) :
    (∃ action ∈ target.plannedActions old new,
        action.operation = operation ∧ object ∈ action.affected) ∨
      ∃ reason, .manualMigration object reason ∈ (target.schemaChange old new).warnings ∧
        reason.operation = operation := by
  rcases names with ⟨statement, member, own, affected⟩ | ⟨reason, member, own⟩
  · rcases exists_action_of_plan planned member with ⟨action, actionMember, written⟩
    rw [operation_of_statement written] at own
    rw [affected_of_statement written] at affected
    exact .inl ⟨action, actionMember, own, affected⟩
  · exact .inr ⟨reason, (plan_eq_ok_iff.mp planned).2.symm ▸ member, own⟩

/-- An extension, a type or a sequence that a plan names is a new extension, or a type or a sequence
of the new version. -/
theorem of_leading_names (planned : target.plan old new = .ok plan) {operation : Operation}
    (leads : operation ∈ [.createExtension, .createType, .createSequence])
    (names : plan.Names operation object) :
    operation = .createExtension ∧ (∀ extension ∈ old.extensions, extension.name ≠ object) ∨
      operation = .createType ∧ (∃ enumType ∈ new.enums, enumType.name.text = object) ∨
        operation = .createSequence ∧ ∃ sequence ∈ new.sequences, sequence.name.text = object := by
  rcases of_names planned names with ⟨action, member, own, affected⟩ | ⟨reason, member, own⟩
  · rcases SchemaChange.exists_leadingStep member (own ▸ leads) with ⟨step, leading, rfl⟩
    rcases SchemaChange.action_of_mem_leadingSteps leading with
      ⟨extension, _, without, equal⟩ | ⟨enumType, enumMember, actions⟩ |
        ⟨sequence, sequenceMember, equal⟩
    · rw [equal] at own affected
      refine .inl ⟨own.symm, fun other otherMember same => ?_⟩
      have different := without other otherMember
      rw [same, List.mem_singleton.mp affected, beq_self_eq_true] at different
      cases different
    · rw [SchemaChange.affected_of_mem_enumPlan actions, List.mem_singleton] at affected
      rw [SchemaChange.operation_of_mem_enumPlan actions] at own
      exact .inr (.inl ⟨own.symm, enumType, enumMember, affected.symm⟩)
    · rw [equal] at own affected
      exact .inr (.inr ⟨own.symm, sequence, sequenceMember, (List.mem_singleton.mp affected).symm⟩)
  · rcases SchemaChange.of_mem_warnings member with
      ⟨enumType, enumMember, named, rfl⟩ | ⟨sequence, sequenceMember, named, rfl⟩ | rule
    · exact .inr (.inl ⟨own.symm, enumType, enumMember, named⟩)
    · exact .inr (.inr ⟨own.symm, sequence, sequenceMember, named⟩)
    · rw [own] at rule
      simp only [List.mem_cons, List.not_mem_nil, or_false] at leads
      rcases leads with rfl | rfl | rfl <;> simp at rule

theorem name_ne_of_extension_names (planned : target.plan old new = .ok plan)
    (names : plan.Names .createExtension object) :
    ∀ extension ∈ old.extensions, extension.name ≠ object := by
  rcases of_leading_names planned (by decide) names with ⟨_, new⟩ | ⟨other, _⟩ | ⟨other, _⟩
  · exact new
  · cases other
  · cases other

theorem exists_enum_of_names (planned : target.plan old new = .ok plan)
    (names : plan.Names .createType object) :
    ∃ enumType ∈ new.enums, enumType.name.text = object := by
  rcases of_leading_names planned (by decide) names with ⟨other, _⟩ | ⟨_, named⟩ | ⟨other, _⟩
  · cases other
  · exact named
  · cases other

theorem exists_sequence_of_names (planned : target.plan old new = .ok plan)
    (names : plan.Names .createSequence object) :
    ∃ sequence ∈ new.sequences, sequence.name.text = object := by
  rcases of_leading_names planned (by decide) names with ⟨other, _⟩ | ⟨other, _⟩ | ⟨_, named⟩
  · cases other
  · cases other
  · exact named

theorem not_owned (planned : target.plan old new = .ok plan) {sequence : QualifiedName}
    {owner : String} {statement : Statement} (member : statement ∈ plan.statements) :
    target.statement (.ownSequence sequence owner) ≠ .ok statement := by
  intro owns
  have gives : statement.givesSequence = true := givesSequence_of_statement owns
  rcases exists_action_of_plan planned member with ⟨action, actionMember, written⟩
  rw [givesSequence_of_statement written] at gives
  rcases Action.givesSequence_iff.mp gives with ⟨_, _, rfl⟩
  rcases SchemaChange.exists_leadingStep actionMember (by simp [Action.operation]) with
    ⟨step, leading, own⟩
  rcases SchemaChange.action_of_mem_leadingSteps leading with
    ⟨_, _, _, equal⟩ | ⟨enumType, _, planned⟩ | ⟨_, _, equal⟩
  · cases equal.symm.trans own
  · have operation := SchemaChange.operation_of_mem_enumPlan planned
    rw [own] at operation
    cases operation
  · cases equal.symm.trans own

end Target

/-! ## What objects are compared with -/

section

variable {α : Type} {same : α → α → Bool} {olds news : List α} {old new : α}

theorem Standing.among_eq_changed [BEq α] [LawfulBEq α] (apart : Apart same olds)
    (matching : Matches same) (member : old ∈ olds) (alike : same old new = true)
    (different : old ≠ new) : Standing.among olds (same · new) new = .changed old := by
  unfold Standing.among
  rw [apart.find?_of_same matching member alike]
  exact if_neg fun equal => different (beq_iff_eq.mp equal)

theorem mem_filter_missing (matching : Matches same) (member : old ∈ olds)
    (missing : ∀ new ∈ news, same old new = false) :
    old ∈ olds.filter fun old => !news.any (same · old) := by
  refine List.mem_filter.mpr ⟨member, ?_⟩
  rw [Bool.not_eq_true', List.any_eq_false]
  intro new newMember alike
  cases (missing new newMember).symm.trans (matching.symm new old alike)

theorem routed_mem_standingSteps {standing : α → Standing α} (create : α → Action)
    (member : new ∈ news) (added : standing new = .added) :
    .routed (create new) ∈ news.flatMap fun object => (standing object).steps (create object) := by
  refine List.mem_flatMap.mpr ⟨new, member, ?_⟩
  rw [added]
  exact List.mem_singleton.mpr rfl

theorem manualMigration_mem_standingWarnings {standing : α → Standing α} {label : α → String}
    (kind : ObjectKind) (member : new ∈ news) (changed : standing new = .changed old) :
    .manualMigration (label new) (.changed kind) ∈
      news.flatMap fun object => (standing object).warnings kind (label object) := by
  refine List.mem_flatMap.mpr ⟨new, member, ?_⟩
  rw [changed]
  exact List.mem_singleton.mpr rfl

theorem accountsFor_of_standing [BEq α] [LawfulBEq α] {named : String → Prop} {label : α → String}
    (apart : Apart same olds) (matching : Matches same)
    (added : ∀ new ∈ news, Standing.among olds (same · new) new = .added → named (label new))
    (changed : ∀ new ∈ news, ∀ old, Standing.among olds (same · new) new = .changed old →
      named (label new))
    (removed : ∀ old ∈ olds, (∀ new ∈ news, same old new = false) → named (label old)) :
    AccountsFor named same label (· ≠ ·) olds news := by
  refine ⟨?_, ?_, removed⟩
  · intro new member missing
    exact added new member (SchemaChange.standing_eq_added_iff.mpr missing)
  · intro old oldMember new newMember alike different
    exact changed new newMember old
      (Standing.among_eq_changed apart matching oldMember alike different)

end

namespace SchemaChange

variable {change : SchemaChange}

theorem createPolicy_mem_securingActions {policy : Policy} {named : List String}
    {policies : List Policy} (member : policy ∈ policies) :
    .createPolicy policy ∈ change.securingActions named policies := by
  induction policies generalizing named with
  | nil => cases member
  | cons first policies induction =>
      unfold securingActions
      rcases List.mem_cons.mp member with rfl | member
      · split
        · exact List.mem_cons_self
        · exact List.mem_cons_of_mem _ List.mem_cons_self
      · split
        · exact List.mem_cons_of_mem _ (induction member)
        · exact List.mem_cons_of_mem _ (List.mem_cons_of_mem _ (induction member))

theorem createPolicy_mem_policySteps {policy : Policy} (member : policy ∈ change.new.policies)
    (added : change.policyStanding policy = .added) :
    .routed (.createPolicy policy) ∈ change.policySteps := by
  refine List.mem_map_of_mem (createPolicy_mem_securingActions (List.mem_filter.mpr ⟨member, ?_⟩))
  rw [added]

theorem exists_mem_labelActions {name : QualifiedName} {held labels : List String} {label : String}
    (member : label ∈ labels) (missing : label ∉ held) :
    ∃ action, action ∈ labelActions name held labels := by
  induction labels with
  | nil => cases member
  | cons first labels induction =>
      unfold labelActions
      split
      · rcases List.mem_cons.mp member with rfl | member
        · exact absurd (List.contains_iff_mem.mp ‹_›) missing
        · exact induction member
      · exact ⟨_, List.mem_cons_self⟩

theorem enumPlan_of_missing {enumType : EnumType}
    (missing : ∀ old ∈ change.old.enums, change.same old.name enumType.name = false) :
    change.enumPlan enumType = ([.createEnum enumType], []) := by
  have found : (change.old.enums.find? fun old => change.same old.name enumType.name) = none :=
    List.find?_eq_none.mpr fun old member => by simp [missing old member]
  rw [enumPlan, found]

theorem exists_of_relabelled {enumType old : EnumType}
    (found : (change.old.enums.find? fun old => change.same old.name enumType.name) = some old)
    (different : old.values ≠ enumType.values) :
    (∃ action, action ∈ (change.enumPlan enumType).1) ∨
      .manualMigration enumType.name.text .relabelled ∈ (change.enumPlan enumType).2 := by
  unfold enumPlan
  rw [found]
  dsimp only
  rw [if_neg (by simpa using different)]
  split
  · rename_i kept
    refine .inl ?_
    have lacks : ∃ label ∈ enumType.values, label ∉ old.values := by
      by_contra all
      push Not at all
      have whole : enumType.values.filter old.values.contains = enumType.values :=
        List.filter_eq_self.mpr fun label member => List.contains_iff_mem.mpr (all label member)
      exact different ((beq_iff_eq.mp kept).symm.trans whole)
    rcases lacks with ⟨label, member, missing⟩
    exact exists_mem_labelActions member missing
  · exact .inr (List.mem_singleton.mpr rfl)

end SchemaChange

namespace Target

variable {target : Target} {old new : Schema} {plan : MigrationPlan}

section

variable {α : Type} [BEq α] [LawfulBEq α] {same : α → α → Bool} {olds news : List α}
  {label : α → String}

theorem accountsFor_of_kind (planned : target.plan old new = .ok plan) (kind : ObjectKind)
    (apart : Apart same olds) (matching : Matches same)
    (added : ∀ object ∈ news, Standing.among olds (same · object) object = .added →
      plan.Names kind.operation (label object))
    (changed : ∀ warning ∈ news.flatMap fun object =>
      (Standing.among olds (same · object) object).warnings kind (label object),
        warning ∈ (target.schemaChange old new).warnings)
    (removed : ∀ warning ∈ (olds.filter fun object => !news.any (same · object)).map fun object =>
      PlanWarning.manualMigration (label object) (.removed kind),
        warning ∈ (target.schemaChange old new).warnings) :
    AccountsFor (plan.Names kind.operation) same label (· ≠ ·) olds news := by
  refine accountsFor_of_standing apart matching added ?_ ?_
  · intro object member other standing
    have warned : PlanWarning.manualMigration (label object) (.changed kind) ∈
        (target.schemaChange old new).warnings := by
      apply changed
      exact manualMigration_mem_standingWarnings kind member standing
    exact names_of_warning planned warned
  · intro object member missing
    have warned : PlanWarning.manualMigration (label object) (.removed kind) ∈
        (target.schemaChange old new).warnings := by
      apply removed
      exact List.mem_map_of_mem (mem_filter_missing matching member missing)
    exact names_of_warning planned warned

end

section

variable (planned : target.plan old new = .ok plan)

include planned

theorem names_of_leading (action : Action) {object : String}
    (member : .routed action ∈ (target.schemaChange old new).leadingSteps)
    (names : object ∈ action.affected) : plan.Names action.operation object := by
  refine names_of_action planned ?_ names
  rw [SchemaChange.steps_eq]
  simp only [List.mem_append]
  exact .inl (.inl (.inl (.inl member)))

theorem names_of_trailing (action : Action) {object : String}
    (member : .routed action ∈ (target.schemaChange old new).trailingSteps)
    (names : object ∈ action.affected) : plan.Names action.operation object := by
  refine names_of_action planned ?_ names
  rw [SchemaChange.steps_eq]
  exact List.mem_append_right _ member

variable (apart : old.ObjectsApart target.capabilities.defaultSchema)

include apart

theorem accountsFor_views :
    AccountsFor (plan.Names .createView)
      (fun left right => (target.schemaChange old new).same left.name right.name) (·.name.text)
      (· ≠ ·) old.views new.views := by
  refine accountsFor_of_kind planned .view apart.views matches_names ?_ ?_ ?_
  · intro view member added
    refine names_of_trailing planned (.createView view) ?_ List.mem_cons_self
    simp only [SchemaChange.trailingSteps, List.mem_append]
    exact .inl (.inl (.inl (routed_mem_standingSteps _ member added)))
  · intro warning member
    simp only [SchemaChange.warnings, SchemaChange.changeWarnings, List.mem_append]
    exact .inl (.inr (.inl (.inl (.inl member))))
  · intro warning member
    simp only [SchemaChange.warnings, SchemaChange.removalWarnings, List.flatten_cons,
      List.mem_append]
    exact .inr (.inl member)

theorem accountsFor_functions :
    AccountsFor (plan.Names .createFunction)
      (fun left right => (target.schemaChange old new).same left.name right.name) (·.name.text)
      (· ≠ ·) old.functions new.functions := by
  refine accountsFor_of_kind planned .function apart.functions matches_names ?_ ?_ ?_
  · intro function member added
    refine names_of_trailing planned (.createFunction function) ?_ List.mem_cons_self
    simp only [SchemaChange.trailingSteps, List.mem_append]
    exact .inl (.inl (.inr (routed_mem_standingSteps _ member added)))
  · intro warning member
    simp only [SchemaChange.warnings, SchemaChange.changeWarnings, List.mem_append]
    exact .inl (.inr (.inl (.inl (.inr member))))
  · intro warning member
    simp only [SchemaChange.warnings, SchemaChange.removalWarnings, List.flatten_cons,
      List.mem_append]
    exact .inr (.inr (.inl member))

theorem accountsFor_triggers :
    AccountsFor (plan.Names .createTrigger) (target.schemaChange old new).sameTrigger
      Trigger.location (· ≠ ·) old.triggers new.triggers := by
  refine accountsFor_of_kind planned .trigger apart.rules.triggers matches_rules ?_ ?_ ?_
  · intro trigger member added
    refine names_of_trailing planned (.createTrigger trigger) ?_ List.mem_cons_self
    simp only [SchemaChange.trailingSteps, List.mem_append]
    exact .inl (.inr (routed_mem_standingSteps _ member added))
  · intro warning member
    simp only [SchemaChange.warnings, SchemaChange.changeWarnings, List.mem_append]
    exact .inl (.inr (.inl (.inr member)))
  · intro warning member
    simp only [SchemaChange.warnings, SchemaChange.removalWarnings, List.flatten_cons,
      List.mem_append]
    exact .inr (.inr (.inr (.inl member)))

theorem accountsFor_policies :
    AccountsFor (plan.Names .createPolicy) (target.schemaChange old new).samePolicy
      Policy.location (· ≠ ·) old.policies new.policies := by
  refine accountsFor_of_kind planned .policy apart.rules.policies matches_rules ?_ ?_ ?_
  · intro policy member added
    refine names_of_trailing planned (.createPolicy policy) ?_ List.mem_cons_self
    simp only [SchemaChange.trailingSteps, List.mem_append]
    exact .inr (SchemaChange.createPolicy_mem_policySteps member added)
  · intro warning member
    simp only [SchemaChange.warnings, SchemaChange.changeWarnings, List.mem_append]
    exact .inl (.inr (.inr member))
  · intro warning member
    simp only [SchemaChange.warnings, SchemaChange.removalWarnings, List.flatten_cons,
      List.mem_append]
    exact .inr (.inr (.inr (.inr (.inl member))))

theorem accountsFor_sequences (stay : (target.schemaChange old new).ObjectsStay) :
    AccountsFor (plan.Names .createSequence)
      (fun left right => (target.schemaChange old new).same left.name right.name) (·.name.text)
      (· ≠ ·) old.sequences new.sequences := by
  refine accountsFor_of_standing apart.sequences matches_names ?_ ?_ ?_
  · intro sequence member added
    refine names_of_leading planned (.createSequence sequence) ?_ List.mem_cons_self
    exact List.mem_append_right _ (routed_mem_standingSteps _ member added)
  · intro sequence member other changed
    have warned : PlanWarning.manualMigration sequence.name.text (.changed .sequence) ∈
        (target.schemaChange old new).warnings := by
      simp only [SchemaChange.warnings, List.mem_append]
      exact .inl (.inl (.inl (.inl (.inl (.inr
        (manualMigration_mem_standingWarnings .sequence member changed))))))
    exact names_of_warning planned warned
  · intro sequence member missing
    rcases stay.sequences sequence member with ⟨other, otherMember, alike⟩
    cases (missing other otherMember).symm.trans alike

theorem accountsFor_enums (stay : (target.schemaChange old new).ObjectsStay) :
    AccountsFor (plan.Names .createType)
      (fun left right => (target.schemaChange old new).same left.name right.name) (·.name.text)
      (·.values ≠ ·.values) old.enums new.enums := by
  have named : ∀ enumType ∈ new.enums,
      ∀ action ∈ ((target.schemaChange old new).enumPlan enumType).1,
        plan.Names .createType enumType.name.text := by
    intro enumType member action planning
    have leading : .routed action ∈ (target.schemaChange old new).leadingSteps := by
      refine List.mem_append_left _ (List.mem_append_right _ ?_)
      exact List.mem_flatMap.mpr ⟨enumType, member, List.mem_map_of_mem planning⟩
    have names : enumType.name.text ∈ action.affected := by
      rw [SchemaChange.affected_of_mem_enumPlan planning]
      exact List.mem_cons_self
    rw [← SchemaChange.operation_of_mem_enumPlan planning]
    exact names_of_leading planned action leading names
  refine ⟨?_, ?_, ?_⟩
  · intro enumType member missing
    apply named enumType member (.createEnum enumType)
    rw [SchemaChange.enumPlan_of_missing missing]
    exact List.mem_cons_self
  · intro before beforeMember enumType member alike different
    have found : (target.schemaChange old new).old.enums.find? (fun held =>
        (target.schemaChange old new).same held.name enumType.name) = some before :=
      apart.enums.find?_of_same matches_names beforeMember alike
    rcases SchemaChange.exists_of_relabelled found different with ⟨action, planning⟩ | warned
    · exact named enumType member action planning
    · have warning : PlanWarning.manualMigration enumType.name.text .relabelled ∈
          (target.schemaChange old new).warnings := by
        simp only [SchemaChange.warnings, List.mem_append]
        exact .inl (.inl (.inl (.inl (.inl (.inl
          (List.mem_flatMap.mpr ⟨enumType, member, warned⟩))))))
      exact names_of_warning planned warning
  · intro enumType member missing
    rcases stay.enums enumType member with ⟨other, otherMember, alike⟩
    cases (missing other otherMember).symm.trans alike

omit apart in
theorem accountsFor_extensions (newApart : new.ObjectsApart target.capabilities.defaultSchema)
    (stay : (target.schemaChange old new).ObjectsStay) :
    AccountsFor (plan.Names .createExtension) (·.name == ·.name) (·.name) (· ≠ ·) old.extensions
      new.extensions := by
  refine ⟨?_, ?_, ?_⟩
  · intro extension member missing
    refine names_of_leading planned (.createExtension extension) ?_ List.mem_cons_self
    refine List.mem_append_left _ (List.mem_append_left _ (List.mem_map_of_mem ?_))
    refine List.mem_filter.mpr ⟨member, ?_⟩
    rw [Bool.not_eq_true', List.any_eq_false]
    exact fun old oldMember => by simp [missing old oldMember]
  · intro extension member other otherMember alike different
    have kept := stay.extensions extension member
    have equal := newApart.extensions.eq_of_same (fun _ _ => BEq.symm) kept otherMember alike
    exact absurd equal different
  · intro extension member missing
    have different := missing extension (stay.extensions extension member)
    rw [beq_self_eq_true] at different
    cases different

end

/-! ## Plans -/

theorem exists_same_of_accountsFor {α : Type} {named : String → Prop} {same : α → α → Bool}
    {label : α → String} {differ : α → α → Prop} {olds news : List α} {object : α}
    (accounts : AccountsFor named same label differ olds news) (member : object ∈ olds)
    (there : named (label object) → ∃ other ∈ news, same object other = true) :
    ∃ other ∈ news, same object other = true := by
  by_contra gone
  have missing : ∀ other ∈ news, same object other = false := by
    intro other otherMember
    rw [Bool.eq_false_iff]
    exact fun alike => gone ⟨other, otherMember, alike⟩
  exact gone (there (accounts.removed object member missing))

theorem agrees_of_text {defaultSchema : String} {name other : QualifiedName} (read : name.FromText)
    (otherRead : other.FromText) (text : other.text = name.text) :
    name.agrees defaultSchema other = true := by
  rw [(otherRead.text_inj read).mp text]
  exact QualifiedName.agrees_self name

section

variable (planned : target.plan old new = .ok plan)
  (accounts : target.AccountsForObjects (target.schemaChange old new) plan)

include planned accounts

theorem mem_new_of_extension {extension : Extension} (member : extension ∈ old.extensions) :
    extension ∈ new.extensions := by
  have unnamed : ¬plan.Names .createExtension extension.name := fun names =>
    name_ne_of_extension_names planned names extension member rfl
  rcases exists_same_of_accountsFor accounts.extensions member
    fun names => absurd names unnamed with ⟨other, otherMember, alike⟩
  have equal : extension = other := by
    by_contra different
    apply unnamed
    rw [beq_iff_eq.mp alike]
    exact accounts.extensions.changed extension member other otherMember alike different
  rw [equal]
  exact otherMember

theorem exists_new_of_enum (oldRead : old.ObjectsRead) (newRead : new.ObjectsRead)
    {enumType : EnumType} (member : enumType ∈ old.enums) :
    ∃ other ∈ new.enums, (target.schemaChange old new).same enumType.name other.name = true := by
  apply exists_same_of_accountsFor accounts.enums member
  intro names
  rcases exists_enum_of_names planned names with ⟨other, otherMember, text⟩
  exact ⟨other, otherMember,
    agrees_of_text (oldRead.enums enumType member) (newRead.enums other otherMember) text⟩

theorem exists_new_of_sequence (oldRead : old.ObjectsRead) (newRead : new.ObjectsRead)
    {sequence : Sequence} (member : sequence ∈ old.sequences) :
    ∃ other ∈ new.sequences,
      (target.schemaChange old new).same sequence.name other.name = true := by
  apply exists_same_of_accountsFor accounts.sequences member
  intro names
  rcases exists_sequence_of_names planned names with ⟨other, otherMember, text⟩
  exact ⟨other, otherMember, agrees_of_text (oldRead.sequences sequence member)
    (newRead.sequences other otherMember) text⟩

theorem unowned_of_accountsForObjects {sequence : Sequence} (member : sequence ∈ new.sequences)
    (missing : ∀ other ∈ old.sequences,
      (target.schemaChange old new).same other.name sequence.name = false) :
    sequence.ownedBy = none := by
  cases owned : sequence.ownedBy with
  | none => rfl
  | some owner =>
      rcases accounts.owned sequence member missing owner owned with
        ⟨statement, statementMember, written⟩
      exact absurd written (not_owned planned statementMember)

end

/-- Of schemas whose objects have names of their own, a plan accounts for all objects beside tables
exactly when no type and no sequence is gone, extensions are only added, and no new sequence has an
owner. -/
theorem plan_accountsForObjects_iff (planned : target.plan old new = .ok plan)
    (oldApart : old.ObjectsApart target.capabilities.defaultSchema)
    (newApart : new.ObjectsApart target.capabilities.defaultSchema)
    (oldRead : old.ObjectsRead) (newRead : new.ObjectsRead) :
    target.AccountsForObjects (target.schemaChange old new) plan ↔
      (target.schemaChange old new).ObjectsStay := by
  constructor
  · intro accounts
    exact ⟨fun _ => mem_new_of_extension planned accounts,
      fun _ => exists_new_of_enum planned accounts oldRead newRead,
      fun _ => exists_new_of_sequence planned accounts oldRead newRead,
      fun _ => unowned_of_accountsForObjects planned accounts⟩
  · intro stay
    refine ⟨accountsFor_extensions planned newApart stay, accountsFor_enums planned oldApart stay,
      accountsFor_sequences planned oldApart stay, accountsFor_views planned oldApart,
      accountsFor_functions planned oldApart, accountsFor_triggers planned oldApart,
      accountsFor_policies planned oldApart, ?_⟩
    intro sequence member missing owner owned
    rw [stay.unowned sequence member missing] at owned
    cases owned

end Target

/-! ## An example -/

namespace ObjectsExample

def numbers : Sequence := { name := .plain "page_ids" }

def titles : View := { name := .plain "titles", query := "SELECT title FROM pages" }

def shownTitles : View := { titles with query := "SELECT title FROM pages WHERE shown" }

def slugs : View := { name := .plain "slugs", query := "SELECT slug FROM pages" }

def old : Schema := { sequences := [numbers], views := [titles, slugs] }

/-- A type is new, a view is changed and another one gone. -/
def new : Schema where
  sequences := [numbers]
  views := [shownTitles]
  enums := [{ name := .plain "state", values := ["draft", "shown"] }]

def numbered : Schema := { sequences := [numbers] }

end ObjectsExample

open ObjectsExample in
/-- A new type is created, and the views that are changed and gone are warned of. -/
theorem plan_accountsForObjects_pages :
    ∃ plan, Target.plan ⟨Capabilities.postgres, {}⟩ old new = .ok plan ∧
      plan.statements.map (·.operation) = [.createType] ∧
      plan.warnings =
        [.manualMigration "titles" (.changed .view), .manualMigration "slugs" (.removed .view)] ∧
      old.ObjectsApart "public" ∧ new.ObjectsApart "public" ∧ old.ObjectsRead ∧
      new.ObjectsRead ∧
      Target.AccountsForObjects ⟨Capabilities.postgres, {}⟩
        (Target.schemaChange ⟨Capabilities.postgres, {}⟩ old new) plan := by
  have succeeds : ∃ plan, Target.plan ⟨Capabilities.postgres, {}⟩ old new = .ok plan ∧
      plan.statements.map (·.operation) = [.createType] ∧
      plan.warnings =
        [.manualMigration "titles" (.changed .view),
          .manualMigration "slugs" (.removed .view)] := by
    decide +kernel
  rcases succeeds with ⟨plan, planned, operations, warnings⟩
  have oldApart : old.ObjectsApart "public" :=
    ⟨by decide, by decide, by decide, by decide, by decide, ⟨.nil, .nil⟩⟩
  have newApart : new.ObjectsApart "public" :=
    ⟨by decide, by decide, by decide, by decide, by decide, ⟨.nil, .nil⟩⟩
  have pageIds : numbers.name.FromText := ⟨"page_ids", by decide +kernel⟩
  have oldRead : old.ObjectsRead := ⟨by simp [old], List.forall_mem_singleton.mpr pageIds⟩
  have newRead : new.ObjectsRead :=
    ⟨List.forall_mem_singleton.mpr ⟨"state", by decide +kernel⟩,
      List.forall_mem_singleton.mpr pageIds⟩
  refine ⟨plan, planned, operations, warnings, oldApart, newApart, oldRead, newRead,
    (Target.plan_accountsForObjects_iff planned oldApart newApart oldRead newRead).mpr ?_⟩
  have stays : (Target.schemaChange ⟨Capabilities.postgres, {}⟩ old new).same numbers.name
      numbers.name = true := QualifiedName.agrees_self numbers.name
  refine ⟨fun _ member => ?_, fun _ member => ?_, ?_, ?_⟩
  · cases member
  · cases member
  · exact List.forall_mem_singleton.mpr ⟨numbers, List.mem_cons_self, stays⟩
  · exact List.forall_mem_singleton.mpr fun _ => rfl

open ObjectsExample in
/-- A sequence that is gone is neither dropped nor warned of. -/
theorem plan_forgets_sequence_pages :
    numbered.ObjectsApart "public" ∧
      Target.plan ⟨Capabilities.postgres, {}⟩ numbered {} = .ok {} ∧
      ¬Target.AccountsForObjects ⟨Capabilities.postgres, {}⟩
        (Target.schemaChange ⟨Capabilities.postgres, {}⟩ numbered {}) {} := by
  refine ⟨⟨by decide, by decide, by decide, by decide, by decide, ⟨.nil, .nil⟩⟩,
    by decide +kernel, ?_⟩
  intro accounts
  have named := accounts.sequences.removed numbers List.mem_cons_self fun _ member =>
    absurd member List.not_mem_nil
  rcases named with ⟨_, member, _⟩ | ⟨_, member, _⟩
  · cases member
  · cases member

end SchemaDdl
