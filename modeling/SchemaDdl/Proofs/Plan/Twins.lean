import SchemaDdl.Proofs.Plan.Matching
import SchemaDdl.Proofs.Plan.Parts
import SchemaDdl.Proofs.Writing.Twins

/-!
# Plans of twins

Targets that differ in transactions at most plan the same actions. A plan for SQLite that creates no
triggers holds only actions that every target of the family carries out in the same words, or fails
for, and their strings are strings of the two schemas.
-/

namespace SchemaDdl

open Text

/-! ## The same actions -/

namespace Target.Twins

variable {left right : Target} {comments : Bool}

theorem capabilities_family (twins : Twins left right) :
    left.capabilities.family = right.capabilities.family :=
  twins.left_family.trans twins.right_family.symm

theorem requiresRecreation (twins : Twins left right) (change : TableChange) :
    change.requiresRecreation left.capabilities = change.requiresRecreation right.capabilities := by
  have dropping :
      left.capabilities.supports .dropColumn = right.capabilities.supports .dropColumn :=
    twins.supports .dropColumn (by decide)
  rw [TableChange.requiresRecreation, TableChange.requiresRecreation, twins.capabilities_family,
    dropping]

theorem actions (twins : Twins left right) (change : TableChange) :
    change.actions left.capabilities comments = change.actions right.capabilities comments := by
  have leftFamily : left.capabilities.family = .sqlite := twins.left_family
  have rightFamily : right.capabilities.family = .sqlite := twins.right_family
  simp only [TableChange.actions, leftFamily, rightFamily, TableChange.sqliteActions,
    twins.requiresRecreation]

theorem tableSteps (twins : Twins left right) (change : TableChange) :
    change.steps left.capabilities comments = change.steps right.capabilities comments := by
  simp only [TableChange.steps, TableChange.alterationSteps, twins.requiresRecreation,
    twins.actions]

theorem completion_eq_nil {target : Target} (plain : target.Plain) (table : Table) :
    table.completion target.capabilities comments = [] := by
  have family : target.capabilities.family = .sqlite := plain.family
  have comment : target.capabilities.supports .comments = false :=
    Bool.eq_false_iff.mpr fun supported => absurd (plain.features .comments supported) (by decide)
  simp [Table.completion, Table.creationSettings, family, comment]

theorem steps (twins : Twins left right) (change : SchemaChange) :
    change.steps left.capabilities comments = change.steps right.capabilities comments := by
  simp only [SchemaChange.steps, SchemaChange.creationSteps, SchemaChange.creationActions,
    completion_eq_nil twins.left_plain, completion_eq_nil twins.right_plain, twins.tableSteps]

end Target.Twins

/-! ## Actions with strings on one line -/

theorem Table.allOneLine_parts {table : Table} (strings : AllOneLine table.strings) :
    AllOneLine table.qualifiedName.strings ∧ (∀ column ∈ table.columns, AllOneLine column.strings) ∧
      ∀ index ∈ table.indexes, AllOneLine index.strings := by
  simp only [Table.strings, allOneLine_append, allOneLine_flatMap] at strings
  exact ⟨strings.1.1.1, strings.1.1.2, strings.2⟩

namespace TableChange

variable {change : TableChange} {capabilities : Capabilities} {comments : Bool}

theorem unbroken_actions (sqlite : capabilities.family = .sqlite)
    (old : AllOneLine change.old.strings) (new : AllOneLine change.new.strings) :
    ∀ action ∈ change.actions capabilities comments, action.Unbroken := by
  rcases Table.allOneLine_parts new with ⟨name, columns, _⟩
  rcases Table.allOneLine_parts old with ⟨_, oldColumns, _⟩
  intro action member
  unfold actions at member
  split at member
  · cases member
  · rw [sqlite] at member
    simp only [sqliteActions] at member
    split at member
    · rw [List.mem_singleton.mp member]
      exact new
    · rcases List.mem_append.mp member with member | member
      · rcases List.mem_map.mp member with ⟨column, added, rfl⟩
        exact ⟨name, columns column (List.mem_filter.mp added).1⟩
      · rcases List.mem_map.mp member with ⟨column, removed, rfl⟩
        exact ⟨name, oldColumns column (List.mem_filter.mp removed).1 _ List.mem_cons_self⟩

theorem unbroken_steps (sqlite : capabilities.family = .sqlite)
    (old : AllOneLine change.old.strings) (new : AllOneLine change.new.strings) :
    ∀ step ∈ change.steps capabilities comments, step.action.Unbroken := by
  rcases Table.allOneLine_parts new with ⟨_, _, indexes⟩
  rcases Table.allOneLine_parts old with ⟨_, _, oldIndexes⟩
  have alterations : ∀ step ∈ change.alterationSteps capabilities comments,
      step.action.Unbroken := by
    intro step member
    have among : step.action ∈ change.actions capabilities comments := by
      rw [← map_action_alterationSteps]
      exact List.mem_map_of_mem member
    exact unbroken_actions sqlite old new step.action among
  intro step member
  unfold steps at member
  split at member
  · exact alterations step member
  · rcases List.mem_append.mp member with member | member
    · rcases List.mem_append.mp member with member | member
      · rcases List.mem_map.mp member with ⟨index, removed, rfl⟩
        exact oldIndexes index (List.mem_filter.mp removed).1
      · exact alterations step member
    · rcases List.mem_flatMap.mp member with ⟨index, among, member⟩
      split at member
      · rw [List.mem_singleton.mp member]
        exact indexes index among
      · rename_i held found
        split at member
        · cases member
        · rcases List.mem_cons.mp member with rfl | member
          · exact oldIndexes held (List.mem_of_find?_eq_some found)
          · rw [List.mem_singleton.mp member]
            exact indexes index among

end TableChange

namespace SchemaChange

variable {change : SchemaChange} {capabilities : Capabilities} {comments : Bool}

theorem unbroken_labelActions {name : QualifiedName} (strings : AllOneLine name.strings)
    (held : List String) {labels : List String} (single : AllOneLine labels) :
    ∀ action ∈ labelActions name held labels, action.Unbroken := by
  induction labels with
  | nil => exact fun _ member => absurd member List.not_mem_nil
  | cons label labels induction =>
      rw [allOneLine_cons] at single
      unfold labelActions
      split
      · exact induction single.2
      · rw [List.forall_mem_cons]
        refine ⟨⟨strings, single.1, ?_⟩, induction single.2⟩
        intro next found
        exact single.2 next (List.mem_of_find?_eq_some found)

theorem unbroken_enumPlan {enumType : EnumType} (strings : AllOneLine enumType.strings) :
    ∀ action ∈ (change.enumPlan enumType).1, action.Unbroken := by
  rw [EnumType.strings, allOneLine_append] at strings
  intro action member
  unfold enumPlan at member
  split at member
  · rw [List.mem_singleton.mp member]
    trivial
  · split at member
    · cases member
    · split at member
      · exact unbroken_labelActions strings.1 _ strings.2 action member
      · cases member

theorem unbroken_leadingSteps (new : AllOneLine change.new.strings) :
    ∀ step ∈ change.leadingSteps, step.action.Unbroken := by
  simp only [Schema.strings, allOneLine_append, allOneLine_flatMap] at new
  intro step member
  rcases List.mem_append.mp member with member | member
  · rcases List.mem_append.mp member with member | member
    · rcases List.mem_map.mp member with ⟨extension, _, rfl⟩
      trivial
    · rcases List.mem_flatMap.mp member with ⟨enumType, among, member⟩
      rcases List.mem_map.mp member with ⟨action, planned, rfl⟩
      exact unbroken_enumPlan (new.1.2 enumType among) action planned
  · rcases of_mem_standingSteps member with ⟨sequence, _, rfl⟩
    trivial

theorem unbroken_trailingSteps (new : AllOneLine change.new.strings)
    (still : change.new.triggers = []) : ∀ step ∈ change.trailingSteps, step.action.Unbroken := by
  simp only [Schema.strings, allOneLine_append, allOneLine_flatMap] at new
  intro step member
  rcases List.mem_append.mp member with member | member
  · rcases List.mem_append.mp member with member | member
    · rcases List.mem_append.mp member with member | member
      · rcases of_mem_standingSteps member with ⟨view, among, rfl⟩
        exact new.2 view among
      · rcases of_mem_standingSteps member with ⟨function, _, rfl⟩
        trivial
    · rcases of_mem_standingSteps member with ⟨trigger, among, _⟩
      rw [still] at among
      cases among
  · rcases List.mem_map.mp member with ⟨action, secured, rfl⟩
    rcases of_mem_securingActions secured with ⟨table, rfl⟩ | ⟨policy, rfl⟩
    · trivial
    · trivial

theorem unbroken_steps {target : Target} (plain : target.Plain)
    (old : AllOneLine change.old.strings) (new : AllOneLine change.new.strings)
    (still : change.new.triggers = []) :
    ∀ step ∈ change.steps target.capabilities comments, step.action.Unbroken := by
  have oldTables : ∀ table ∈ change.old.tables, AllOneLine table.strings := by
    simp only [Schema.strings, allOneLine_append, allOneLine_flatMap] at old
    exact old.1.1
  have newTables : ∀ table ∈ change.new.tables, AllOneLine table.strings := by
    simp only [Schema.strings, allOneLine_append, allOneLine_flatMap] at new
    exact new.1.1
  intro step member
  rw [steps_eq] at member
  rcases List.mem_append.mp member with member | member
  · rcases List.mem_append.mp member with member | member
    · rcases List.mem_append.mp member with member | member
      · rcases List.mem_append.mp member with member | member
        · exact unbroken_leadingSteps new step member
        · rcases List.mem_flatMap.mp member with ⟨table, created, member⟩
          have among := (List.mem_filter.mp (mem_inDependencyOrder.mp created)).1
          have strings := newTables table among
          rw [creationActions, Target.Twins.completion_eq_nil plain, List.append_nil] at member
          rcases List.mem_map.mp member with ⟨action, creates, rfl⟩
          rcases List.mem_cons.mp creates with rfl | creates
          · exact strings
          · rcases List.mem_map.mp creates with ⟨index, among, rfl⟩
            exact (Table.allOneLine_parts strings).2.2 index among
      · rcases List.mem_flatMap.mp member with ⟨pair, kept, member⟩
        rcases mem_keptTables.mp kept with ⟨among, found⟩
        exact TableChange.unbroken_steps plain.family
          (oldTables pair.old (List.mem_of_find?_eq_some found)) (newTables pair.new among) step
          member
    · rcases List.mem_map.mp member with ⟨table, dropped, rfl⟩
      have among := (List.mem_filter.mp (mem_inDependencyOrder.mp (List.mem_reverse.mp dropped))).1
      exact (Table.allOneLine_parts (oldTables table among)).1
  · exact unbroken_trailingSteps new still step member

end SchemaChange

end SchemaDdl
