import SchemaDdl.Capability.BuiltIn
import SchemaDdl.Proofs.Plan.Phases
import SchemaDdl.Proofs.Plan.Steps
import SchemaDdl.Proofs.Schema.Equivalence

/-!
# Plans without a statement

Between equivalent versions of a well-formed schema there is nothing to do and nothing to warn of:
no comparison of the plan sees a difference, so that nothing has to be written, not even what the
dialect could not write.
-/

namespace SchemaDdl

theorem Rename.bestPairs_nil : bestPairs [] = [] := by
  simp [bestPairs]

/-! ## Columns -/

theorem ColumnChange.isChange_of_equivalent {change : ColumnChange}
    (equivalent : change.old.Equivalent change.new)
    (definite : ∀ default ∈ change.old.default, default.IsDefinite) : change.isChange = false := by
  have default : (change.old.default == change.old.default) = true := by
    cases found : change.old.default with
    | none => rfl
    | some default => exact Default.same_self (definite default found)
  simp only [isChange, isStructural, typeChanged, nullabilityChanged, defaultChanged,
    identityChanged, generatedChanged, uniqueChanged, referencesChanged, checkChanged,
    commentChanged, equivalent.type, equivalent.collation, equivalent.nullable, equivalent.default,
    equivalent.autoIncrement, equivalent.generated, equivalent.unique, equivalent.references,
    equivalent.check, equivalent.comment, bne, default, beq_self_eq_true, Bool.not_true,
    Bool.or_self]

theorem ColumnChange.between?_of_equivalent {old new : Column} (equivalent : old.Equivalent new)
    (definite : ∀ default ∈ old.default, default.IsDefinite) : between? old new = none := by
  have unchanged : isChange ⟨old, new⟩ = false := isChange_of_equivalent equivalent definite
  rw [between?, unchanged]
  rfl

/-! ## Tables -/

namespace TableChange

variable {change : TableChange} {capabilities : Capabilities} {comments : Bool}

theorem added_eq_nil
    (held : ∀ column ∈ change.new.columns, ∃ other ∈ change.old.columns, other.name = column.name) :
    change.added = [] := by
  refine List.filter_eq_nil_iff.mpr fun column member => ?_
  simpa [Table.hasColumn, Table.column?] using held column member

theorem removed_eq_nil
    (kept : ∀ column ∈ change.old.columns, ∃ other ∈ change.new.columns, other.name = column.name) :
    change.removed = [] := by
  refine List.filter_eq_nil_iff.mpr fun column member => ?_
  simpa [Table.hasColumn, Table.column?] using kept column member

theorem indexRemovals_eq_nil
    (kept : ∀ index ∈ change.old.indexes, ∃ other ∈ change.new.indexes, other.name = index.name) :
    change.indexRemovals = [] := by
  rw [indexRemovals, List.map_eq_nil_iff, List.filter_eq_nil_iff]
  intro index member
  simpa using kept index member

theorem indexRemovals_of_perm (perm : change.new.indexes.Perm change.old.indexes) :
    change.indexRemovals = [] :=
  indexRemovals_eq_nil fun index member => ⟨index, perm.mem_iff.mpr member, rfl⟩

theorem indexAdditions_of_perm (perm : change.new.indexes.Perm change.old.indexes)
    (wellFormed : change.old.WellFormed) : change.indexAdditions = [] := by
  refine List.flatMap_eq_nil_iff.mpr fun index member => ?_
  have found : change.old.indexes.find? (·.name == index.name) = some index :=
    wellFormed.indexes.find?_eq_some (fun _ _ => BEq.symm) (perm.mem_iff.mp member)
      (beq_self_eq_true _)
  rw [found]
  exact if_pos (beq_self_eq_true index)

theorem added_of_equivalent (equivalent : change.old.Equivalent change.new) :
    change.added = [] := by
  apply added_eq_nil
  intro column member
  rcases equivalent.columns.exists_left member with ⟨held, heldMember, same⟩
  exact ⟨held, heldMember, same.name.symm⟩

theorem removed_of_equivalent (equivalent : change.old.Equivalent change.new) :
    change.removed = [] := by
  apply removed_eq_nil
  intro column member
  rcases equivalent.columns.exists_right member with ⟨kept, keptMember, same⟩
  exact ⟨kept, keptMember, same.name⟩

theorem altered_of_equivalent (equivalent : change.old.Equivalent change.new)
    (wellFormed : change.old.WellFormed) : change.altered = [] := by
  refine List.filterMap_eq_nil_iff.mpr fun column member => ?_
  rcases equivalent.columns.exists_left member with ⟨held, heldMember, same⟩
  have found : change.old.column? column.name = some held := by
    rw [same.name]
    exact wellFormed.columns.find?_eq_some (fun _ _ => BEq.symm) heldMember (beq_self_eq_true _)
  rw [found, Option.bind_some,
    ColumnChange.between?_of_equivalent same (wellFormed.defaults held heldMember)]

theorem constraintsOnlyIn_of_perm {first second : Table} (name : first.name = second.name)
    (perm : (first.constraints.filter (!·.isPrimaryKey)).Perm
      (second.constraints.filter (!·.isPrimaryKey))) :
    constraintsOnlyIn first second = [] := by
  refine List.filter_eq_nil_iff.mpr fun named member => ?_
  have held : named ∈ second.namedConstraints := by
    unfold Table.namedConstraints at member ⊢
    rw [name] at member
    exact (perm.map _).mem_iff.mp member
  simpa using ⟨named.2, held, rfl⟩

theorem isEmpty_of_equivalent (equivalent : change.old.Equivalent change.new)
    (wellFormed : change.old.WellFormed) : change.isEmpty = true := by
  have name : change.new.name = change.old.name := congrArg QualifiedName.name equivalent.name
  have addedConstraints : change.addedConstraints = [] :=
    constraintsOnlyIn_of_perm name equivalent.constraints
  have removedConstraints : change.removedConstraints = [] :=
    constraintsOnlyIn_of_perm name.symm equivalent.constraints.symm
  simp [isEmpty, added_of_equivalent equivalent, removed_of_equivalent equivalent,
    altered_of_equivalent equivalent wellFormed, addedConstraints, removedConstraints,
    primaryKeyChanged, optionsChanged, platformChanged, commentChanged, equivalent.primaryKey,
    equivalent.options, equivalent.partitioning, equivalent.inherits, equivalent.platform,
    equivalent.comment]

theorem steps_of_equivalent (equivalent : change.old.Equivalent change.new)
    (wellFormed : change.old.WellFormed) : change.steps capabilities comments = [] := by
  have alterations : change.alterationSteps capabilities comments = [] := by
    simp [alterationSteps, actions, isEmpty_of_equivalent equivalent wellFormed]
  rw [steps, alterations, indexRemovals_of_perm equivalent.indexes,
    indexAdditions_of_perm equivalent.indexes wellFormed]
  split <;> rfl

theorem renameWarnings_of_equivalent (equivalent : change.old.Equivalent change.new) :
    change.renameWarnings = [] := by
  rw [renameWarnings, columnRenames, removed_of_equivalent equivalent, List.flatMap_nil,
    Rename.bestPairs_nil, List.map_nil]

end TableChange

/-! ## Objects -/

theorem Standing.among_eq_unchanged {α : Type} [BEq α] [LawfulBEq α] {same : α → α → Bool}
    {olds news : List α} (apart : Apart same olds)
    (symmetric : ∀ left right, same left right = true → same right left = true)
    (reflexive : ∀ object, same object object = true) (perm : news.Perm olds) :
    ∀ object ∈ news, Standing.among olds (same · object) object = .unchanged := by
  intro object member
  rw [among, apart.find?_eq_some symmetric (perm.mem_iff.mp member) (reflexive object)]
  exact if_pos (beq_self_eq_true object)

theorem ne_added_of_unchanged {α : Type} {objects : List α} {standing : α → Standing α}
    (unchanged : ∀ object ∈ objects, standing object = .unchanged) :
    ∀ object ∈ objects, standing object ≠ .added := by
  intro object member
  rw [unchanged object member]
  nofun

theorem flatMap_steps_eq_nil {α : Type} {objects : List α} {standing : α → Standing α}
    {create : α → Action} (there : ∀ object ∈ objects, standing object ≠ .added) :
    (objects.flatMap fun object => (standing object).steps (create object)) = [] := by
  refine List.flatMap_eq_nil_iff.mpr fun object member => ?_
  cases found : standing object with
  | added => exact absurd found (there object member)
  | unchanged => rfl
  | changed old => rfl

theorem flatMap_warnings_eq_nil {α : Type} {objects : List α} {standing : α → Standing α}
    {kind : ObjectKind} {location : α → String}
    (unchanged : ∀ object ∈ objects, standing object = .unchanged) :
    (objects.flatMap fun object => (standing object).warnings kind (location object)) = [] := by
  refine List.flatMap_eq_nil_iff.mpr fun object member => ?_
  rw [unchanged object member]
  rfl

theorem filter_missing_eq_nil {α : Type} {same : α → α → Bool} {objects others : List α}
    (perm : objects.Perm others) (reflexive : ∀ object, same object object = true) :
    (objects.filter fun object => !others.any (same · object)) = [] := by
  refine List.filter_eq_nil_iff.mpr fun object member => ?_
  have held : others.any (same · object) = true :=
    List.any_eq_true.mpr ⟨object, perm.mem_iff.mp member, reflexive object⟩
  rw [held]
  exact Bool.false_ne_true

/-! ## Schemas -/

namespace SchemaChange

variable {change : SchemaChange} {capabilities : Capabilities} {comments : Bool}

theorem sameTrigger_self (trigger : Trigger) : change.sameTrigger trigger trigger = true := by
  rw [sameTrigger, same, beq_self_eq_true, QualifiedName.agrees_self, Bool.and_self]

theorem samePolicy_self (policy : Policy) : change.samePolicy policy policy = true := by
  rw [samePolicy, same, beq_self_eq_true, QualifiedName.agrees_self, Bool.and_self]

theorem sameTrigger_symm (left right : Trigger) (alike : change.sameTrigger left right = true) :
    change.sameTrigger right left = true := by
  rcases Bool.and_eq_true_iff.mp alike with ⟨name, table⟩
  exact Bool.and_eq_true_iff.mpr ⟨BEq.symm name, QualifiedName.agrees_symm table⟩

theorem samePolicy_symm (left right : Policy) (alike : change.samePolicy left right = true) :
    change.samePolicy right left = true := by
  rcases Bool.and_eq_true_iff.mp alike with ⟨name, table⟩
  exact Bool.and_eq_true_iff.mpr ⟨BEq.symm name, QualifiedName.agrees_symm table⟩

section

variable (equivalent : change.old.Equivalent change.new)

include equivalent

theorem createdTables_of_equivalent : change.createdTables = [] := by
  apply createdTables_eq_nil
  intro table member
  rcases equivalent.tables.exists_left member with ⟨old, oldMember, same⟩
  exact ⟨old, oldMember, same.name ▸ QualifiedName.agrees_self _⟩

theorem droppedTables_of_equivalent : change.droppedTables = [] := by
  apply droppedTables_eq_nil
  intro table member
  rcases equivalent.tables.exists_right member with ⟨new, newMember, same⟩
  exact ⟨new, newMember, same.name ▸ QualifiedName.agrees_self _⟩

theorem removalWarnings_of_equivalent : change.removalWarnings = [] := by
  have views : (change.old.views.filter fun view =>
      !change.new.views.any fun new => change.same new.name view.name) = [] :=
    filter_missing_eq_nil equivalent.views.symm fun _ => QualifiedName.agrees_self _
  have functions : (change.old.functions.filter fun function =>
      !change.new.functions.any fun new => change.same new.name function.name) = [] :=
    filter_missing_eq_nil equivalent.functions.symm fun _ => QualifiedName.agrees_self _
  have triggers := filter_missing_eq_nil equivalent.triggers.symm change.sameTrigger_self
  have policies := filter_missing_eq_nil equivalent.policies.symm change.samePolicy_self
  rw [removalWarnings, views, functions, triggers, policies]
  rfl

variable (wellFormed : change.old.WellFormed change.defaultSchema)

include wellFormed

theorem equivalent_of_mem_keptTables {pair : TableChange} (kept : pair ∈ change.keptTables) :
    pair.old.Equivalent pair.new ∧ pair.old.WellFormed := by
  rcases mem_keptTables.mp kept with ⟨newMember, found⟩
  rcases equivalent.tables.exists_left newMember with ⟨table, member, same⟩
  have agrees : table.qualifiedName.agrees change.defaultSchema pair.new.qualifiedName = true := by
    rw [same.name]
    exact QualifiedName.agrees_self _
  have meant := Schema.tableMatching?_of_namesApart wellFormed.names member agrees
  rw [Option.some.inj (found.symm.trans meant)]
  exact ⟨same, wellFormed.tables table member⟩

theorem enumPlan_of_equivalent {enumType : EnumType} (member : enumType ∈ change.new.enums) :
    change.enumPlan enumType = ([], []) := by
  have found : (change.old.enums.find? fun old => change.same old.name enumType.name) =
      some enumType :=
    wellFormed.enums.find?_eq_some (fun _ _ => QualifiedName.agrees_symm)
      (equivalent.enums.mem_iff.mp member) (QualifiedName.agrees_self _)
  rw [enumPlan, found]
  exact if_pos (beq_self_eq_true enumType.values)

theorem sequenceStanding_of_equivalent :
    ∀ sequence ∈ change.new.sequences, change.sequenceStanding sequence = .unchanged :=
  Standing.among_eq_unchanged wellFormed.sequences (fun _ _ => QualifiedName.agrees_symm)
    (fun _ => QualifiedName.agrees_self _) equivalent.sequences

theorem viewStanding_of_equivalent :
    ∀ view ∈ change.new.views, change.viewStanding view = .unchanged :=
  Standing.among_eq_unchanged wellFormed.views (fun _ _ => QualifiedName.agrees_symm)
    (fun _ => QualifiedName.agrees_self _) equivalent.views

theorem functionStanding_of_equivalent :
    ∀ function ∈ change.new.functions, change.functionStanding function = .unchanged :=
  Standing.among_eq_unchanged wellFormed.functions (fun _ _ => QualifiedName.agrees_symm)
    (fun _ => QualifiedName.agrees_self _) equivalent.functions

end

theorem triggerStanding_of_equivalent (equivalent : change.old.Equivalent change.new)
    (rules : change.old.RulesApart change.defaultSchema) :
    ∀ trigger ∈ change.new.triggers, change.triggerStanding trigger = .unchanged :=
  Standing.among_eq_unchanged rules.triggers change.sameTrigger_symm change.sameTrigger_self
    equivalent.triggers

theorem policyStanding_of_equivalent (equivalent : change.old.Equivalent change.new)
    (rules : change.old.RulesApart change.defaultSchema) :
    ∀ policy ∈ change.new.policies, change.policyStanding policy = .unchanged :=
  Standing.among_eq_unchanged rules.policies change.samePolicy_symm change.samePolicy_self
    equivalent.policies

theorem policySteps_eq_nil
    (there : ∀ policy ∈ change.new.policies, change.policyStanding policy ≠ .added) :
    change.policySteps = [] := by
  have added : change.addedPolicies = [] := by
    refine List.filter_eq_nil_iff.mpr fun policy member => ?_
    cases found : change.policyStanding policy with
    | added => exact absurd found (there policy member)
    | unchanged => exact Bool.false_ne_true
    | changed old => exact Bool.false_ne_true
  rw [policySteps, added]
  rfl

theorem steps_of_equivalent (equivalent : change.old.Equivalent change.new)
    (wellFormed : change.old.WellFormed change.defaultSchema)
    (rules : change.old.RulesApart change.defaultSchema) :
    change.steps capabilities comments = [] := by
  have extensions : change.extensionSteps = [] := by
    have missing : (change.new.extensions.filter fun extension =>
        !change.old.extensions.any (·.name == extension.name)) = [] :=
      filter_missing_eq_nil equivalent.extensions fun extension => beq_self_eq_true extension.name
    rw [extensionSteps, missing, List.map_nil]
  have enums : change.enumSteps = [] := List.flatMap_eq_nil_iff.mpr fun enumType member => by
    rw [enumPlan_of_equivalent equivalent wellFormed member, List.map_nil]
  have sequences : change.sequenceSteps = [] :=
    flatMap_steps_eq_nil
      (ne_added_of_unchanged (sequenceStanding_of_equivalent equivalent wellFormed))
  have creations : change.creationSteps capabilities comments = [] := by
    rw [creationSteps, createdTables_of_equivalent equivalent]
    rfl
  have alterations : change.keptTables.flatMap (·.steps capabilities comments) = [] := by
    refine List.flatMap_eq_nil_iff.mpr fun pair kept => ?_
    rcases equivalent_of_mem_keptTables equivalent wellFormed kept with ⟨same, proper⟩
    exact TableChange.steps_of_equivalent same proper
  have drops : change.dropSteps = [] := by
    rw [dropSteps, droppedTables_of_equivalent equivalent]
    rfl
  have views : change.viewSteps = [] :=
    flatMap_steps_eq_nil (ne_added_of_unchanged (viewStanding_of_equivalent equivalent wellFormed))
  have functions : change.functionSteps = [] :=
    flatMap_steps_eq_nil
      (ne_added_of_unchanged (functionStanding_of_equivalent equivalent wellFormed))
  have triggers : change.triggerSteps = [] :=
    flatMap_steps_eq_nil (ne_added_of_unchanged (triggerStanding_of_equivalent equivalent rules))
  have policies : change.policySteps = [] :=
    policySteps_eq_nil (ne_added_of_unchanged (policyStanding_of_equivalent equivalent rules))
  rw [steps, extensions, enums, sequences, creations, alterations, drops, views, functions,
    triggers, policies]
  rfl

theorem warnings_of_equivalent (equivalent : change.old.Equivalent change.new)
    (wellFormed : change.old.WellFormed change.defaultSchema)
    (rules : change.old.RulesApart change.defaultSchema) : change.warnings = [] := by
  have enums : change.enumWarnings = [] := List.flatMap_eq_nil_iff.mpr fun enumType member => by
    rw [enumPlan_of_equivalent equivalent wellFormed member]
  have sequences : change.sequenceWarnings = [] :=
    flatMap_warnings_eq_nil (sequenceStanding_of_equivalent equivalent wellFormed)
  have tableRenames : change.tableRenames = [] := by
    rw [SchemaChange.tableRenames, droppedTables_of_equivalent equivalent, List.flatMap_nil,
      Rename.bestPairs_nil]
  have cycles : change.cycleWarnings = [] := by
    rw [cycleWarnings, createdTables_of_equivalent equivalent]
    rfl
  have columnRenames : change.keptTables.flatMap (·.renameWarnings) = [] :=
    List.flatMap_eq_nil_iff.mpr fun pair kept =>
      TableChange.renameWarnings_of_equivalent
        (equivalent_of_mem_keptTables equivalent wellFormed kept).1
  have changes : change.changeWarnings = [] := by
    rw [changeWarnings, flatMap_warnings_eq_nil (viewStanding_of_equivalent equivalent wellFormed),
      flatMap_warnings_eq_nil (functionStanding_of_equivalent equivalent wellFormed),
      flatMap_warnings_eq_nil (triggerStanding_of_equivalent equivalent rules),
      flatMap_warnings_eq_nil (policyStanding_of_equivalent equivalent rules)]
    rfl
  rw [warnings, enums, sequences, tableRenames, cycles, columnRenames, changes,
    removalWarnings_of_equivalent equivalent]
  rfl

end SchemaChange

/-! ## Plans -/

/-- Between equivalent versions of a schema whose names mean one object each there is nothing to do
and nothing to warn of, whatever the target can write; so there is between a schema and itself. -/
theorem Target.plan_of_equivalent {target : Target} {old : Schema}
    (wellFormed : old.WellFormed target.capabilities.defaultSchema)
    (rules : old.RulesApart target.capabilities.defaultSchema) :
    (∀ new, old.Equivalent new → target.plan old new = .ok {}) ∧ target.plan old old = .ok {} := by
  have empty : ∀ new, old.Equivalent new → target.plan old new = .ok {} := by
    intro new equivalent
    have same : (target.schemaChange old new).old.Equivalent (target.schemaChange old new).new :=
      equivalent
    refine plan_eq_ok_iff.mpr ⟨?_, SchemaChange.warnings_of_equivalent same wellFormed rules⟩
    rw [orderedActions, SchemaChange.steps_of_equivalent same wellFormed rules]
    rfl
  exact ⟨empty, empty old (.refl old)⟩

/-! ## An example -/

namespace EmptinessExample

def title : Column :=
  { name := "title", dataType := "text", default := some (.literal (.string "untitled")) }

def visits : Table := { name := "visits", columns := [{ name := "page", dataType := "int" }] }

def flaggedPages : Table where
  name := "pages"
  columns := [{ name := "id", dataType := "int", primaryKey := true }, title]

def constrainedPages : Table where
  name := "pages"
  columns := [title, { name := "id", dataType := "INTEGER" }]
  constraints := [{ kind := .primaryKey ["id"] }]

def old : Schema := { tables := [flaggedPages, visits] }

def new : Schema := { tables := [visits, constrainedPages] }

theorem old_wellFormed : old.WellFormed "public" where
  names := by decide
  tables := by
    have plain : visits.WellFormed := ⟨by decide, by decide, by simp [visits]⟩
    have pages : flaggedPages.WellFormed :=
      ⟨by decide, by decide, by simp [flaggedPages, title, Default.IsDefinite, Literal.IsDefinite]⟩
    exact List.forall_mem_cons.mpr ⟨pages, List.forall_mem_singleton.mpr plain⟩
  enums := .nil
  sequences := .nil
  functions := .nil
  views := .nil

theorem old_equivalent_new : old.Equivalent new where
  tables := by
    have identity : Column.Equivalent { name := "id", dataType := "int", primaryKey := true }
        { name := "id", dataType := "INTEGER" } :=
      ⟨rfl, by decide +kernel, rfl, rfl, rfl, rfl, rfl, rfl, rfl, rfl, rfl⟩
    have columns : Arranged Column.Equivalent flaggedPages.columns constrainedPages.columns :=
      ⟨_, .swap .., .cons (.refl title) (.cons identity .nil)⟩
    have pages : flaggedPages.Equivalent constrainedPages :=
      ⟨rfl, columns, rfl, .refl _, .refl _, rfl, rfl, rfl, rfl, rfl⟩
    exact ⟨_, .swap .., .cons (.refl visits) (.cons pages .nil)⟩
  enums := .refl _
  sequences := .refl _
  functions := .refl _
  triggers := .refl _
  policies := .refl _
  views := .refl _
  extensions := .refl _

def touch : Trigger where
  name := "touch"
  table := .plain "pages"
  timing := .before
  events := [.insert]
  function := some (.plain "touch")

def touched : Schema where
  tables := [visits, flaggedPages]
  triggers := [touch, { touch with table := .ofText "public.pages", timing := .after }]

end EmptinessExample

open EmptinessExample in
theorem plan_of_equivalent_pages :
    old.WellFormed "public" ∧ old.RulesApart "public" ∧ old.Equivalent new ∧
      Target.plan ⟨Capabilities.postgres, {}⟩ old new = .ok {} := by
  have rules : old.RulesApart "public" := ⟨.nil, .nil⟩
  exact ⟨old_wellFormed, rules, old_equivalent_new,
    (Target.plan_of_equivalent old_wellFormed rules).1 new old_equivalent_new⟩

open EmptinessExample in
/-- Triggers whose names and tables differ as they are written may be one trigger to a plan. -/
theorem plan_warns_of_triggers_pages :
    touched.WellFormed "public" ∧
      (touched.triggers.map fun trigger => (trigger.name, trigger.table)).Nodup ∧
      (touched.policies.map fun policy => (policy.name, policy.table)).Nodup ∧
      Target.plan ⟨Capabilities.postgres, {}⟩ touched touched =
        .ok { warnings := [.manualMigration "public.pages.touch" (.changed .trigger)] } := by
  have tables : ∀ table ∈ touched.tables, table.WellFormed := fun table member =>
    old_wellFormed.tables table (by simpa [touched, old, or_comm] using member)
  have wellFormed : touched.WellFormed "public" :=
    ⟨by decide, tables, .nil, .nil, .nil, .nil⟩
  exact ⟨wellFormed, by decide +kernel, .nil, by decide +kernel⟩

end SchemaDdl
