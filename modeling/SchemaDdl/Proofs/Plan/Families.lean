import Mathlib.Data.List.Basic
import Mathlib.Data.List.Find
import SchemaDdl.Capability.BuiltIn
import SchemaDdl.Proofs.Plan.Alteration
import SchemaDdl.Proofs.Plan.Matching
import SchemaDdl.Proofs.Plan.Steps

/-!
# Danger in both families

The same change is planned for the Postgres family and for SQLite, and both plans say whether it
endangers rows. SQLite builds most tables anew and flags this as a whole; two dangers that the
Postgres family flags are passed over there, and the plans agree exactly where these do not stand
alone.
-/

namespace SchemaDdl

/-! ## Tables on SQLite -/

namespace TableChange

variable {change : TableChange} {capabilities : Capabilities} {comments : Bool}

theorem not_isSafeToAdd_of_requiresBackfill {column : Column}
    (unfilled : column.requiresBackfill = true) : isSafeToAdd column = false := by
  simp only [Column.requiresBackfill, Bool.and_eq_true, Bool.not_eq_true',
    Option.isNone_iff_eq_none] at unfilled
  rcases unfilled with ⟨⟨⟨notNull, noDefault⟩, notGenerated⟩, _⟩
  simp [isSafeToAdd, hasConstantDefault?, notNull, noDefault, notGenerated]

theorem requiresRecreation_of_isDestructive (sqlite : capabilities.family = .sqlite)
    (keepsColumns : capabilities.supports .dropColumn = false)
    (destructive : change.isDestructive = true) :
    change.requiresRecreation capabilities = true := by
  simp only [isDestructive, Bool.or_eq_true, List.any_eq_true] at destructive
  simp only [requiresRecreation, sqlite, keepsColumns, Bool.or_eq_true, List.any_eq_true,
    Bool.not_false, Bool.and_true]
  rcases destructive with (((removed | ⟨pair, member, endangers⟩) | constraint) | key) |
    ⟨column, member, unfilled⟩
  · simp [removed]
  · have structural : ∃ pair ∈ change.altered, pair.isStructural = true :=
      ⟨pair, member, ColumnChange.isStructural_of_isDestructive endangers⟩
    simp [structural]
  · simp [constraint]
  · simp [key]
  · have unsafeToAdd : ∃ column ∈ change.added, (!isSafeToAdd column) = true :=
      ⟨column, member, by simp [not_isSafeToAdd_of_requiresBackfill unfilled]⟩
    exact .inr unsafeToAdd

theorem any_destructive_actions_sqlite (sqlite : capabilities.family = .sqlite)
    (keepsColumns : capabilities.supports .dropColumn = false) :
    (change.actions capabilities comments).any (·.destructive .sqlite) = change.isDestructive := by
  cases destructive : change.isDestructive with
  | true =>
      have recreated := requiresRecreation_of_isDestructive sqlite keepsColumns destructive
      simp [actions, sqlite, sqliteActions, recreated, isEmpty_of_isDestructive destructive,
        destructive]
  | false =>
      cases recreated : change.requiresRecreation capabilities with
      | true =>
          unfold actions
          split
          · rfl
          · simp [sqlite, sqliteActions, recreated, destructive]
      | false =>
          -- Columns that are added in place are all that is left, and SQLite flags none of them.
          have none : change.removed = [] := by
            simp only [isDestructive, Bool.or_eq_false_iff, Bool.not_eq_false',
              List.isEmpty_iff] at destructive
            exact destructive.1.1.1.1
          unfold actions
          split
          · rfl
          · simp [sqlite, sqliteActions, recreated, none]

end TableChange

/-! ## Tables without a schema -/

/-- Whether no table is put into a schema, so that the default schema decides for all of them. -/
def Schema.Unqualified (schema : Schema) : Prop :=
  ∀ table ∈ schema.tables, table.schema = none

instance (schema : Schema) : Decidable schema.Unqualified :=
  inferInstanceAs (Decidable (∀ table ∈ schema.tables, table.schema = none))

theorem Schema.tableMatching?_of_unqualified {schema : Schema} (plain : schema.Unqualified)
    {name : QualifiedName} (namePlain : name.schema = none) (left right : String) :
    schema.tableMatching? left name = schema.tableMatching? right name := by
  refine List.find?_congr fun table member => ?_
  rw [QualifiedName.agrees_of_unqualified (plain table member) namePlain,
    QualifiedName.agrees_of_unqualified (plain table member) namePlain]

namespace SchemaChange

variable {old new : Schema}

theorem droppedTables_of_unqualified (oldPlain : old.Unqualified) (newPlain : new.Unqualified)
    (left right : String) :
    droppedTables ⟨old, new, left⟩ = droppedTables ⟨old, new, right⟩ := by
  refine List.filter_congr fun table member => ?_
  rw [Schema.tableMatching?_of_unqualified newPlain (oldPlain table member) left right]

theorem createdTables_of_unqualified (oldPlain : old.Unqualified) (newPlain : new.Unqualified)
    (left right : String) :
    createdTables ⟨old, new, left⟩ = createdTables ⟨old, new, right⟩ := by
  refine List.filter_congr fun table member => ?_
  rw [Schema.tableMatching?_of_unqualified oldPlain (newPlain table member) left right]

theorem keptTables_of_unqualified (oldPlain : old.Unqualified) (newPlain : new.Unqualified)
    (left right : String) :
    keptTables ⟨old, new, left⟩ = keptTables ⟨old, new, right⟩ := by
  refine List.filterMap_congr fun table member => ?_
  rw [Schema.tableMatching?_of_unqualified oldPlain (newPlain table member) left right]

end SchemaChange

/-! ## Shown and hidden dangers -/

namespace TableChange

variable {change : TableChange} {capabilities : Capabilities} {comments : Bool}

/-- Whether SQLite flags the change of a table: what endangers rows when it is built anew, or a
unique index on a table that stays as it is. -/
def ShowsDanger (change : TableChange) (capabilities : Capabilities) : Prop :=
  change.EndangersRebuilt ∨
    (change.requiresRecreation capabilities = false ∧ change.addsUniqueIndex = true)

/-- Whether the change of a table has a danger that SQLite passes over: a new column that takes no
repeated values, or a unique index that comes with the table built anew. -/
def HidesDanger (change : TableChange) (capabilities : Capabilities) : Prop :=
  change.GainsUniqueColumn ∨
    (change.requiresRecreation capabilities = true ∧ change.addsUniqueIndex = true)

theorem any_destructive_plannedActions_sqlite_iff (sqlite : capabilities.family = .sqlite)
    (keepsColumns : capabilities.supports .dropColumn = false) :
    (change.plannedActions capabilities comments).any (·.destructive .sqlite) = true ↔
      change.ShowsDanger capabilities := by
  rw [any_destructive_plannedActions, any_destructive_actions_sqlite sqlite keepsColumns,
    Bool.or_eq_true, Bool.and_eq_true, isDestructive_iff, Bool.not_eq_true']
  rfl

theorem shows_or_hides (endangers : change.EndangersRows ∨ change.addsUniqueIndex = true) :
    change.ShowsDanger capabilities ∨ change.HidesDanger capabilities := by
  rcases endangers with endangers | adds
  · exact endangers.rebuilt.imp .inl .inl
  · cases recreated : change.requiresRecreation capabilities with
    | false => exact .inl (.inr ⟨recreated, adds⟩)
    | true => exact .inr (.inr ⟨recreated, adds⟩)

theorem HidesDanger.endangers (hides : change.HidesDanger capabilities) :
    change.EndangersRows ∨ change.addsUniqueIndex = true := by
  rcases hides with gains | ⟨_, adds⟩
  · exact .inl (endangersRows_of_gainsUniqueColumn gains)
  · exact .inr adds

theorem endangersRebuilt_iff_of_recreation
    (recreated : change.requiresRecreation capabilities = true) :
    (change.EndangersRows ∨ change.addsUniqueIndex = true → change.EndangersRebuilt) ↔
      (change.HidesDanger capabilities → change.EndangersRebuilt) := by
  constructor
  · intro agrees hides
    exact agrees hides.endangers
  · intro shown endangers
    rcases shows_or_hides endangers with (rebuilt | ⟨inPlace, _⟩) | hides
    · exact rebuilt
    · rw [recreated] at inPlace
      cases inPlace
    · exact shown hides

end TableChange

namespace SchemaChange

def ShowsDanger (change : SchemaChange) (capabilities : Capabilities) : Prop :=
  change.droppedTables ≠ [] ∨
    (∃ table ∈ change.createdTables, ∃ index ∈ table.indexes, index.unique = true) ∨
    ∃ pair ∈ change.keptTables, pair.ShowsDanger capabilities

/-- Whether a change of a schema has a danger that SQLite passes over. -/
def HidesDanger (change : SchemaChange) (capabilities : Capabilities) : Prop :=
  ∃ pair ∈ change.keptTables, pair.HidesDanger capabilities

theorem showsDanger_iff {change : SchemaChange} {capabilities : Capabilities} :
    (change.droppedTables ≠ [] ∨
        (∃ table ∈ change.createdTables, ∃ index ∈ table.indexes, index.unique = true) ∨
        (∃ pair ∈ change.keptTables, pair.EndangersRows ∨ pair.addsUniqueIndex = true) →
      change.ShowsDanger capabilities) ↔
      (change.HidesDanger capabilities → change.ShowsDanger capabilities) := by
  constructor
  · intro agrees hidden
    rcases hidden with ⟨pair, kept, hides⟩
    exact agrees (.inr (.inr ⟨pair, kept, hides.endangers⟩))
  · intro shown danger
    rcases danger with dropped | unique | ⟨pair, kept, endangers⟩
    · exact .inl dropped
    · exact .inr (.inl unique)
    · rcases TableChange.shows_or_hides endangers with shows | hides
      · exact .inr (.inr ⟨pair, kept, shows⟩)
      · exact shown ⟨pair, kept, hides⟩

end SchemaChange

namespace Target

variable {target : Target} {old new : Schema} {plan : MigrationPlan}

theorem isDestructive_plan_sqlite_iff (sqlite : target.family = .sqlite)
    (keepsColumns : target.capabilities.supports .dropColumn = false)
    (planned : target.plan old new = .ok plan) :
    plan.isDestructive = true ↔
      (target.schemaChange old new).ShowsDanger target.capabilities := by
  rw [isDestructive_plan_iff planned, sqlite]
  simp only [TableChange.any_destructive_plannedActions_sqlite_iff sqlite keepsColumns]
  rfl

theorem any_destructive_plannedActions_postgres_iff (postgres : target.family = .postgres)
    (planned : target.plan old new = .ok plan) {pair : TableChange}
    (kept : pair ∈ (target.schemaChange old new).keptTables) :
    (pair.plannedActions target.capabilities target.options.comments).any
        (·.destructive target.family) = true ↔
      pair.EndangersRows ∨ pair.addsUniqueIndex = true := by
  have inPlace : pair.requiresRecreation target.capabilities = false := by
    have family : target.capabilities.family = .postgres := postgres
    simp only [TableChange.requiresRecreation, family]
  have written : ∀ action ∈ pair.actions target.capabilities target.options.comments,
      Succeeds (target.statement action) := fun action member =>
    succeeds_statement_of_kept planned kept (TableChange.mem_plannedActions_of_mem_actions member)
  rw [TableChange.any_destructive_plannedActions, inPlace, Bool.or_eq_true,
    any_destructive_actions_iff postgres written, Bool.not_false, Bool.true_and]

theorem isDestructive_plan_postgres_iff (postgres : target.family = .postgres)
    (planned : target.plan old new = .ok plan) :
    plan.isDestructive = true ↔
      (target.schemaChange old new).droppedTables ≠ [] ∨
      (∃ table ∈ (target.schemaChange old new).createdTables,
        ∃ index ∈ table.indexes, index.unique = true) ∨
      ∃ pair ∈ (target.schemaChange old new).keptTables,
        pair.EndangersRows ∨ pair.addsUniqueIndex = true := by
  rw [isDestructive_plan_iff planned]
  refine or_congr_right (or_congr_right (exists_congr fun pair => and_congr_right fun kept => ?_))
  exact any_destructive_plannedActions_postgres_iff postgres planned kept

end Target

/-! ## Agreement -/

section

variable {dialect : Dialect} {options : Options} {old new : Schema} {left right : MigrationPlan}

theorem supports_dropColumn_builtIn (sqlite : dialect.family = .sqlite) :
    (Capabilities.builtIn dialect).supports .dropColumn = false := by
  cases dialect <;> first | rfl | cases sqlite

/-- The plan for SQLite is destructive whenever the plan for PostgreSQL is, and building a table
anew is flagged whenever PostgreSQL flags a statement about the table, exactly where no danger that
SQLite passes over stands alone. -/
theorem families_agree_iff (sqlite : dialect.family = .sqlite) (oldPlain : old.Unqualified)
    (newPlain : new.Unqualified)
    (postgresPlanned : Target.plan ⟨Capabilities.builtIn .postgres, options⟩ old new = .ok left)
    (sqlitePlanned : Target.plan ⟨Capabilities.builtIn dialect, options⟩ old new = .ok right) :
    ((left.isDestructive = true → right.isDestructive = true) ↔
        ((Target.schemaChange ⟨.builtIn dialect, options⟩ old new).HidesDanger (.builtIn dialect) →
          (Target.schemaChange ⟨.builtIn dialect, options⟩ old new).ShowsDanger
            (.builtIn dialect))) ∧
      ∀ pair ∈ (Target.schemaChange ⟨.builtIn dialect, options⟩ old new).keptTables,
        pair.requiresRecreation (.builtIn dialect) = true →
          (((pair.plannedActions (.builtIn .postgres) options.comments).any
                (·.destructive .postgres) = true →
              (Action.recreateTable pair).destructive .sqlite = true) ↔
            (pair.HidesDanger (.builtIn dialect) → pair.EndangersRebuilt)) := by
  have family : Target.family ⟨.builtIn dialect, options⟩ = .sqlite :=
    (Capabilities.family_builtIn dialect).trans sqlite
  have shows := Target.isDestructive_plan_sqlite_iff family (supports_dropColumn_builtIn sqlite)
    sqlitePlanned
  have flagged := Target.isDestructive_plan_postgres_iff rfl postgresPlanned
  have dropped := SchemaChange.droppedTables_of_unqualified oldPlain newPlain
    (Capabilities.builtIn .postgres).defaultSchema (Capabilities.builtIn dialect).defaultSchema
  have created := SchemaChange.createdTables_of_unqualified oldPlain newPlain
    (Capabilities.builtIn .postgres).defaultSchema (Capabilities.builtIn dialect).defaultSchema
  have kept := SchemaChange.keptTables_of_unqualified oldPlain newPlain
    (Capabilities.builtIn .postgres).defaultSchema (Capabilities.builtIn dialect).defaultSchema
  simp only [Target.schemaChange, dropped, created, kept] at flagged
  refine ⟨?_, fun pair member recreated => ?_⟩
  · rw [shows, flagged]
    exact SchemaChange.showsDanger_iff
  · have postgresKept :
        pair ∈ (Target.schemaChange ⟨.builtIn .postgres, options⟩ old new).keptTables :=
      kept ▸ member
    have pairFlagged : (pair.plannedActions (.builtIn .postgres) options.comments).any
        (·.destructive .postgres) = true ↔ pair.EndangersRows ∨ pair.addsUniqueIndex = true :=
      Target.any_destructive_plannedActions_postgres_iff rfl postgresPlanned postgresKept
    rw [Action.destructive_recreateTable, TableChange.isDestructive_iff, pairFlagged]
    exact TableChange.endangersRebuilt_iff_of_recreation recreated

end

namespace FamiliesExample

def identity : Column := { name := "id", dataType := "integer" }

def code : Column := { name := "code", dataType := "text" }

def barePages : Table := { name := "pages", columns := [identity] }

def codedPages (added : Column) : Table := { name := "pages", columns := [identity, added] }

def old : Schema := { tables := [barePages] }

def new (added : Column) : Schema := { tables := [codedPages added] }

def uniqueCode : Column :=
  { code with unique := true, default := some (.literal (.string "none")) }

def requiredCode : Column := { code with nullable := false }

end FamiliesExample

open FamiliesExample in
/-- Both families flag a new column that the rows have no value for. -/
theorem families_agree_iff_pages :
    Dialect.family .d1 = .sqlite ∧ old.Unqualified ∧ (new requiredCode).Unqualified ∧
      ∃ left right,
        Target.plan ⟨Capabilities.builtIn .postgres, {}⟩ old (new requiredCode) = .ok left ∧
        Target.plan ⟨Capabilities.builtIn .d1, {}⟩ old (new requiredCode) = .ok right ∧
        (left.isDestructive = true → right.isDestructive = true) := by
  have oldPlain : old.Unqualified := by decide
  have newPlain : (new requiredCode).Unqualified := by decide
  have postgresPlan : ∃ left,
      Target.plan ⟨Capabilities.builtIn .postgres, {}⟩ old (new requiredCode) = .ok left := by
    decide +kernel
  have sqlitePlan : ∃ right,
      Target.plan ⟨Capabilities.builtIn .d1, {}⟩ old (new requiredCode) = .ok right := by
    decide +kernel
  rcases postgresPlan with ⟨left, leftPlanned⟩
  rcases sqlitePlan with ⟨right, rightPlanned⟩
  have agreement := families_agree_iff rfl oldPlain newPlain leftPlanned rightPlanned
  have kept : ⟨barePages, codedPages requiredCode⟩ ∈
      SchemaChange.keptTables ⟨old, new requiredCode, "main"⟩ :=
    SchemaChange.mem_keptTables.mpr ⟨List.mem_cons_self, rfl⟩
  have gains : TableChange.GainsColumn ⟨barePages, codedPages requiredCode⟩ requiredCode :=
    ⟨List.mem_cons_of_mem _ List.mem_cons_self, by decide⟩
  have shows : SchemaChange.ShowsDanger ⟨old, new requiredCode, "main"⟩ (.builtIn .d1) :=
    .inr (.inr ⟨_, kept, .inl (.gained requiredCode gains rfl)⟩)
  exact ⟨rfl, oldPlain, newPlain, left, right, leftPlanned, rightPlanned,
    agreement.1.mpr fun _ => shows⟩

open FamiliesExample in
/-- A new column of one constant value that no two rows may share is flagged by PostgreSQL alone. -/
theorem families_disagree_pages :
    old.Unqualified ∧ (new uniqueCode).Unqualified ∧
      ∃ left right,
        Target.plan ⟨Capabilities.builtIn .postgres, {}⟩ old (new uniqueCode) = .ok left ∧
        Target.plan ⟨Capabilities.builtIn .sqlite, {}⟩ old (new uniqueCode) = .ok right ∧
        left.isDestructive = true ∧ right.isDestructive = false := by
  have flagged : ∃ left,
      Target.plan ⟨Capabilities.builtIn .postgres, {}⟩ old (new uniqueCode) = .ok left ∧
        left.isDestructive = true := by
    decide +kernel
  have unflagged : ∃ right,
      Target.plan ⟨Capabilities.builtIn .sqlite, {}⟩ old (new uniqueCode) = .ok right ∧
        right.isDestructive = false := by
    decide +kernel
  rcases flagged with ⟨left, leftPlanned, flagged⟩
  rcases unflagged with ⟨right, rightPlanned, unflagged⟩
  exact ⟨by decide, by decide, left, right, leftPlanned, rightPlanned, flagged, unflagged⟩

end SchemaDdl
