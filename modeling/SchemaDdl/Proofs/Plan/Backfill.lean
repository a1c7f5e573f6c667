import SchemaDdl.Capability.BuiltIn
import SchemaDdl.Proofs.Plan.InPlace
import SchemaDdl.Proofs.Sql.Null

/-!
# New columns that existing rows have no value for

A new column that takes no null needs a value for the rows that exist. Without a default the
statement that brings it is flagged; with a default that is the keyword for no value it is flagged
for another reason or not at all, although SQLite treats the two alike when it decides how to add
the column.
-/

namespace SchemaDdl

/-! ## Unfilled columns -/

/-- Whether existing rows would get no value for a column of a table, though it takes no null: it is
neither numbered nor computed, and its default is not written or written as the keyword for no
value. -/
structure Target.LeavesUnfilled (target : Target) (table : Table) (column : Column) : Prop where
  nullable : column.nullable = false
  isGenerated : column.isGenerated = false
  autoIncrement : column.autoIncrement = false
  noValue : ∃ clause,
    Sql.defaultClause? target.capabilities table.qualifiedName column = .ok clause ∧
      ∀ text ∈ clause, Sql.IsNull text

/-- Why the statement that brings a new column may be flagged for other reasons than that existing
rows lack a value: the column is a key, or the table is built anew and the change endangers rows. -/
def Target.FlagsAnyway (target : Target) (change : TableChange) (column : Column) : Prop :=
  match target.family with
  | .postgres => column.unique = true
  | .sqlite => change.EndangersRebuilt

namespace TableChange

/-- The actions that bring a new column: it is added to the table, or the table is built anew. -/
inductive Introduces (change : TableChange) (column : Column) : Action → Prop
  | added : Introduces change column (.addColumn change.new (change.addedColumn column) false)
  | rebuilt : Introduces change column (.recreateTable change)

end TableChange

/-- Whether a statement that alters a table brings a new column. -/
def Target.Introduces (target : Target) (change : TableChange) (column : Column)
    (statement : Statement) : Prop :=
  ∃ action ∈ change.actions target.capabilities target.options.comments,
    change.Introduces column action ∧ target.statement action = .ok statement

namespace Target.LeavesUnfilled

variable {target : Target} {table : Table} {column : Column}

theorem spellsNull_of_default (unfilled : target.LeavesUnfilled table column) :
    ∀ default ∈ column.default, default.SpellsNull := by
  intro default found
  rcases unfilled.noValue with ⟨clause, clauseOk, null⟩
  simp only [Sql.defaultClause?, Option.mem_def.mp found, unfilled.isGenerated, Bool.false_eq_true,
    if_false] at clauseOk
  split at clauseOk
  · rename_i text written
    cases clauseOk
    exact (Sql.isNull_writtenDefault_iff written).mp (null text rfl)
  · cases clauseOk

theorem requiresBackfill_iff (unfilled : target.LeavesUnfilled table column) :
    column.requiresBackfill = true ↔ column.default = none := by
  simp [Column.requiresBackfill, unfilled.nullable, unfilled.isGenerated, unfilled.autoIncrement]

theorem isSafeToAdd (unfilled : target.LeavesUnfilled table column) :
    TableChange.isSafeToAdd column = false := by
  have constant : TableChange.hasConstantDefault? column.default ≠ some true := by
    cases present : column.default with
    | none => decide
    | some default =>
        have null := unfilled.spellsNull_of_default default present
        cases default with
        | raw expression => exact nofun
        | sentinel sentinel => exact nofun
        | literal literal =>
            cases literal with
            | null => decide
            | string text =>
                have expression := Sql.isExpression_of_spellsNull null
                simp [TableChange.hasConstantDefault?, expression]
            | _ => exact null.elim
  cases default : TableChange.hasConstantDefault? column.default with
  | none => simp [TableChange.isSafeToAdd, default]
  | some value =>
      have value : value = false := by simpa [default] using constant
      simp [TableChange.isSafeToAdd, default, value, unfilled.nullable, unfilled.isGenerated]

end Target.LeavesUnfilled

namespace Target

variable {target : Target} {change : TableChange} {column : Column} {statements : List Statement}

theorem requiresRecreation_of_leavesUnfilled (sqlite : target.family = .sqlite)
    (gains : change.GainsColumn column) (unfilled : target.LeavesUnfilled change.new column) :
    change.requiresRecreation target.capabilities = true := by
  have family : target.capabilities.family = .sqlite := sqlite
  have unsafeColumn : change.added.any (!TableChange.isSafeToAdd ·) = true :=
    List.any_eq_true.mpr ⟨column, TableChange.mem_added.mpr gains, by
      rw [unfilled.isSafeToAdd]
      rfl⟩
  simp only [TableChange.requiresRecreation, family, unsafeColumn, Bool.or_true]

theorem exists_introducing_action (gains : change.GainsColumn column)
    (unfilled : target.LeavesUnfilled change.new column) :
    ∃ action ∈ change.actions target.capabilities target.options.comments,
      change.Introduces column action := by
  cases family : target.capabilities.family with
  | postgres =>
      have added : Action.addColumn change.new (change.addedColumn column) false ∈
          change.columnAdditions :=
        List.mem_map_of_mem (TableChange.mem_added.mpr gains)
      rw [TableChange.actions_of_postgres family]
      exact ⟨_, by simp only [List.mem_append, added, true_or], .added⟩
  | sqlite =>
      have anew := requiresRecreation_of_leavesUnfilled family gains unfilled
      rw [TableChange.actions_of_requiresRecreation family anew]
      exact ⟨_, List.mem_singleton_self _, .rebuilt⟩

theorem destructive_introducing_iff {action : Action} (gains : change.GainsColumn column)
    (unfilled : target.LeavesUnfilled change.new column)
    (member : action ∈ change.actions target.capabilities target.options.comments)
    (introduces : change.Introduces column action) :
    action.destructive target.family = true ↔
      column.default = none ∨ target.FlagsAnyway change column := by
  cases family : target.capabilities.family with
  | postgres =>
      have postgres : target.family = .postgres := family
      cases introduces with
      | rebuilt =>
          have anew := TableChange.requiresRecreation_of_mem_actions member rfl
          rw [TableChange.requiresRecreation, family] at anew
          cases anew
      | added =>
          have same : (change.addedColumn column).requiresBackfill = column.requiresBackfill ∧
              (change.addedColumn column).unique = column.unique := by
            unfold TableChange.addedColumn
            split <;> exact ⟨rfl, rfl⟩
          rw [postgres, Action.destructive_addColumn_postgres, same.1, same.2, Bool.false_or,
            Bool.or_eq_true, unfilled.requiresBackfill_iff]
          simp only [FlagsAnyway, postgres]
  | sqlite =>
      have sqlite : target.family = .sqlite := family
      have anew := requiresRecreation_of_leavesUnfilled family gains unfilled
      rw [TableChange.actions_of_requiresRecreation family anew] at member
      rw [List.mem_singleton.mp member, Action.destructive_recreateTable,
        TableChange.isDestructive_iff]
      simp only [FlagsAnyway, sqlite]
      refine ⟨.inr, fun holds => holds.elim (fun without => ?_) id⟩
      exact .gained column gains (unfilled.requiresBackfill_iff.mpr without)

/-- A new column for which existing rows lack a value is brought by some statement, which is flagged
exactly if the column has no default at all or there is another reason. -/
theorem alterTable_flags_unfilled_iff (written : target.alterTable change = .ok statements)
    (gains : change.GainsColumn column) (unfilled : target.LeavesUnfilled change.new column) :
    (∃ statement ∈ statements, target.Introduces change column statement) ∧
      ∀ statement ∈ statements, target.Introduces change column statement →
        (statement.destructive = true ↔
          column.default = none ∨ target.FlagsAnyway change column) := by
  constructor
  · rcases exists_introducing_action gains unfilled with ⟨action, member, introduces⟩
    rcases exists_value_of_mapM written member with ⟨statement, among, statementOk⟩
    exact ⟨statement, among, action, member, introduces, statementOk⟩
  · intro statement _ brings
    rcases brings with ⟨action, member, introduces, statementOk⟩
    rw [destructive_of_statement statementOk]
    exact destructive_introducing_iff gains unfilled member introduces

end Target

/-! ## An example -/

namespace BackfillExample

def id : Column := { name := "id", dataType := "integer" }

def code (default : Option Default) : Column :=
  { name := "code", dataType := "text", nullable := false, default }

/-- Pages get a code that is never null. -/
def change (default : Option Default) : TableChange where
  old := { name := "pages", columns := [id] }
  new := { name := "pages", columns := [id, code default] }

theorem gainsColumn (default : Option Default) : (change default).GainsColumn (code default) := by
  simp [TableChange.GainsColumn, change, code, id]

theorem leavesUnfilled_of_null (capabilities : Capabilities) :
    Target.LeavesUnfilled ⟨capabilities, {}⟩ (change (some (.literal .null))).new
      (code (some (.literal .null))) where
  nullable := rfl
  isGenerated := rfl
  autoIncrement := rfl
  noValue := ⟨some "NULL", rfl, fun _ found => Option.some.inj found ▸ by decide⟩

end BackfillExample

open BackfillExample in
theorem alterTable_flags_unfilled_pages :
    ∃ statement, Target.alterTable ⟨Capabilities.postgres, {}⟩ (change none) = .ok [statement] ∧
      (change none).GainsColumn (code none) ∧
      Target.LeavesUnfilled ⟨Capabilities.postgres, {}⟩ (change none).new (code none) ∧
      Target.Introduces ⟨Capabilities.postgres, {}⟩ (change none) (code none) statement ∧
      statement.destructive = true := by
  have unfilled : Target.LeavesUnfilled ⟨Capabilities.postgres, {}⟩ (change none).new (code none) :=
    ⟨rfl, rfl, rfl, none, rfl, nofun⟩
  have written : ∃ statement,
      Target.alterTable ⟨Capabilities.postgres, {}⟩ (change none) = .ok [statement] := ⟨_, rfl⟩
  rcases written with ⟨statement, done⟩
  rcases Target.alterTable_flags_unfilled_iff done (gainsColumn none) unfilled with
    ⟨⟨brought, among, introduces⟩, flags⟩
  rw [List.mem_singleton.mp among] at introduces
  exact ⟨statement, done, gainsColumn none, unfilled, introduces,
    (flags statement (List.mem_singleton_self _) introduces).mpr (.inl rfl)⟩

open BackfillExample in
/-- Neither family says that a default that is null leaves existing rows without a value. -/
theorem alterTable_misses_null_default_pages :
    (∃ statement, Target.alterTable ⟨Capabilities.postgres, {}⟩
        (change (some (.literal .null))) = .ok [statement] ∧
      (change (some (.literal .null))).GainsColumn (code (some (.literal .null))) ∧
      Target.LeavesUnfilled ⟨Capabilities.postgres, {}⟩ (change (some (.literal .null))).new
        (code (some (.literal .null))) ∧
      Target.Introduces ⟨Capabilities.postgres, {}⟩ (change (some (.literal .null)))
        (code (some (.literal .null))) statement ∧
      statement.sql = "ALTER TABLE pages ADD COLUMN code text NOT NULL DEFAULT NULL" ∧
      statement.destructive = false) ∧
    ∃ statement, Target.alterTable ⟨Capabilities.sqlite, {}⟩
        (change (some (.literal .null))) = .ok [statement] ∧
      Target.LeavesUnfilled ⟨Capabilities.sqlite, {}⟩ (change (some (.literal .null))).new
        (code (some (.literal .null))) ∧
      Target.Introduces ⟨Capabilities.sqlite, {}⟩ (change (some (.literal .null)))
        (code (some (.literal .null))) statement ∧
      statement.operation = .recreateTable ∧ statement.destructive = false := by
  constructor
  · refine ⟨_, rfl, gainsColumn _, leavesUnfilled_of_null _, ?_, by decide +kernel,
      by decide +kernel⟩
    exact ⟨_, List.mem_singleton_self _, .added, rfl⟩
  · refine ⟨_, rfl, leavesUnfilled_of_null _, ?_, rfl, by decide +kernel⟩
    exact ⟨_, List.mem_singleton_self _, .rebuilt, rfl⟩

end SchemaDdl
