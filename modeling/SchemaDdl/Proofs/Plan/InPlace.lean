import SchemaDdl.Proofs.Plan.Columns
import SchemaDdl.Proofs.Plan.Emptiness

/-!
# Tables that SQLite alters in place

SQLite builds a table anew unless adding and dropping columns is all there is to do: where a table
is altered in place, the old version with its new columns at the end and without those that go
differs from the new version in nothing that a statement could change.
-/

namespace SchemaDdl

/-! ## Primary keys of existing columns -/

/-- Whether the primary keys that a table declares are keys of its columns. -/
def Table.KeysExist (table : Table) : Prop :=
  ∀ constraint ∈ table.constraints, ∀ columns ∈ constraint.primaryKeyColumns?,
    ∀ name ∈ columns, table.hasColumn name = true

theorem Table.hasColumn_iff {table : Table} {name : String} :
    table.hasColumn name = true ↔ ∃ column ∈ table.columns, column.name = name := by
  simp [hasColumn, column?]

theorem Table.hasColumn_of_mem {table : Table} {column : Column} (member : column ∈ table.columns) :
    table.hasColumn column.name = true :=
  hasColumn_iff.mpr ⟨column, member, rfl⟩

theorem Table.hasColumn_of_mem_primaryKeyColumns {table : Table} {name : String}
    (keys : table.KeysExist) (member : name ∈ table.primaryKeyColumns) :
    table.hasColumn name = true := by
  unfold primaryKeyColumns at member
  cases declared : table.constraints.findSome? Constraint.primaryKeyColumns? with
  | some columns =>
      rcases List.exists_of_findSome?_eq_some declared with ⟨constraint, among, found⟩
      rw [declared] at member
      exact keys constraint among columns found name member
  | none =>
      rw [declared] at member
      rcases List.mem_map.mp member with ⟨column, flagged, rfl⟩
      exact hasColumn_of_mem (List.mem_filter.mp flagged).1

namespace TableChange

variable {change : TableChange} {capabilities : Capabilities} {comments : Bool}

/-! ## What remains to be changed -/

def withNewColumns (change : TableChange) : Table :=
  { change.old with
    columns := change.old.columns.filter (fun column => change.new.hasColumn column.name)
      ++ change.added }

def remaining (change : TableChange) : TableChange :=
  ⟨change.withNewColumns, change.new⟩

/-- Whether two versions of a table differ in comments and in settings of a platform at most. -/
structure IsCosmetic (change : TableChange) : Prop where
  added : change.added = []
  removed : change.removed = []
  altered : ∀ pair ∈ change.altered, pair.isStructural = false
  addedConstraints : change.addedConstraints = []
  removedConstraints : change.removedConstraints = []
  primaryKey : change.primaryKeyChanged = false
  options : change.optionsChanged = false

theorem mem_columns_withNewColumns {column : Column} :
    column ∈ change.withNewColumns.columns ↔
      column ∈ change.old.columns ∧ change.new.hasColumn column.name = true ∨
        column ∈ change.added := by
  rw [withNewColumns, List.mem_append, List.mem_filter]

theorem added_remaining : change.remaining.added = [] := by
  refine added_eq_nil fun column member => ?_
  cases held : change.old.hasColumn column.name with
  | true =>
      rcases Table.hasColumn_iff.mp held with ⟨old, oldMember, named⟩
      have kept : change.new.hasColumn old.name = true := named ▸ Table.hasColumn_of_mem member
      exact ⟨old, mem_columns_withNewColumns.mpr (.inl ⟨oldMember, kept⟩), named⟩
  | false =>
      have fresh : column ∈ change.added := List.mem_filter.mpr ⟨member, by simp [held]⟩
      exact ⟨column, mem_columns_withNewColumns.mpr (.inr fresh), rfl⟩

theorem removed_remaining : change.remaining.removed = [] := by
  refine removed_eq_nil fun column member => ?_
  rcases mem_columns_withNewColumns.mp member with ⟨_, held⟩ | fresh
  · exact Table.hasColumn_iff.mp held
  · exact ⟨column, (mem_added.mp fresh).1, rfl⟩

theorem KeepsColumn.of_remaining {pair : ColumnChange}
    (oldDistinct : (change.old.columns.map (·.name)).Nodup)
    (newDistinct : (change.new.columns.map (·.name)).Nodup)
    (keeps : change.remaining.KeepsColumn pair) :
    change.KeepsColumn pair ∨ pair.new ∈ change.added ∧ pair.old = pair.new := by
  rcases mem_columns_withNewColumns.mp keeps.old_mem with ⟨member, _⟩ | fresh
  · exact .inl ⟨keeps.1, Table.column?_eq_some oldDistinct member keeps.old_name⟩
  · have same : pair.old = pair.new :=
      List.inj_on_of_nodup_map newDistinct (mem_added.mp fresh).1 keeps.1 keeps.old_name
    exact .inr ⟨same ▸ fresh, same⟩

theorem altered_remaining (oldDistinct : (change.old.columns.map (·.name)).Nodup)
    (newDistinct : (change.new.columns.map (·.name)).Nodup)
    (definite : ∀ column ∈ change.added, ∀ default ∈ column.default, default.IsDefinite)
    (unaltered : ∀ pair ∈ change.altered, pair.isStructural = false) :
    ∀ pair ∈ change.remaining.altered, pair.isStructural = false := by
  intro pair member
  rcases mem_altered.mp member with ⟨keeps, changed⟩
  rcases KeepsColumn.of_remaining oldDistinct newDistinct keeps with held | ⟨fresh, same⟩
  · exact unaltered pair (mem_altered.mpr ⟨held, changed⟩)
  · have unchanged : pair.isChange = false :=
      ColumnChange.isChange_of_equivalent (same ▸ .refl pair.old)
        (same ▸ definite pair.new fresh)
    exact absurd changed (Bool.eq_false_iff.mp unchanged)

theorem flaggedColumns_withNewColumns
    (kept : ∀ name ∈ change.old.flaggedColumns, change.new.hasColumn name = true)
    (safe : ∀ column ∈ change.added, isSafeToAdd column = true) :
    change.withNewColumns.flaggedColumns = change.old.flaggedColumns := by
  have added : change.added.filter (·.primaryKey) = [] := by
    refine List.filter_eq_nil_iff.mpr fun column member flagged => ?_
    have unflagged := safe column member
    simp [isSafeToAdd, flagged] at unflagged
  have old : (change.old.columns.filter fun column => change.new.hasColumn column.name).filter
      (·.primaryKey) = change.old.columns.filter (·.primaryKey) := by
    rw [List.filter_filter]
    refine List.filter_congr fun column member => ?_
    cases flagged : column.primaryKey with
    | false => rfl
    | true =>
        have among : column.name ∈ change.old.flaggedColumns :=
          List.mem_map_of_mem (List.mem_filter.mpr ⟨member, flagged⟩)
        rw [kept column.name among, Bool.and_self]
  rw [Table.flaggedColumns, withNewColumns, List.filter_append, old, added, List.append_nil,
    Table.flaggedColumns]

/-- Where the key stays, the columns that go and come have no part in it: a key that is no
constraint of the old version is that of flagged columns, which are columns of the new version. -/
theorem primaryKeyColumns_withNewColumns (keys : change.new.KeysExist)
    (sameKey : change.old.primaryKeyColumns = change.new.primaryKeyColumns)
    (safe : ∀ column ∈ change.added, isSafeToAdd column = true) :
    change.withNewColumns.primaryKeyColumns = change.old.primaryKeyColumns := by
  cases declared : change.old.constraints.findSome? Constraint.primaryKeyColumns? with
  | some columns => simp only [Table.primaryKeyColumns, withNewColumns, declared, Option.getD_some]
  | none =>
      have flagged : change.old.primaryKeyColumns = change.old.flaggedColumns := by
        rw [Table.primaryKeyColumns, declared, Option.getD_none]
      have kept : ∀ name ∈ change.old.flaggedColumns, change.new.hasColumn name = true := by
        intro name member
        rw [← flagged, sameKey] at member
        exact Table.hasColumn_of_mem_primaryKeyColumns keys member
      rw [flagged, ← flaggedColumns_withNewColumns kept safe]
      exact congrArg (Option.getD · _) declared

/-! ## What is done in place -/

theorem of_requiresRecreation_eq_false (sqlite : capabilities.family = .sqlite)
    (inPlace : change.requiresRecreation capabilities = false) :
    (∀ pair ∈ change.altered, pair.isStructural = false) ∧ change.addedConstraints = [] ∧
      change.removedConstraints = [] ∧ change.primaryKeyChanged = false ∧
      change.optionsChanged = false ∧ ∀ column ∈ change.added, isSafeToAdd column = true := by
  simp only [requiresRecreation, sqlite, Bool.or_eq_false_iff, List.any_eq_false,
    Bool.not_eq_eq_eq_not, Bool.not_false, List.isEmpty_iff, Bool.not_eq_true] at inPlace
  rcases inPlace with ⟨⟨⟨⟨⟨⟨_, unaltered⟩, added⟩, removed⟩, key⟩, options⟩, safe⟩
  exact ⟨unaltered, added, removed, key, options, fun column member =>
    by simpa using safe column member⟩

theorem isEmpty_eq_false_of_requiresRecreation
    (anew : change.requiresRecreation capabilities = true) : change.isEmpty = false := by
  refine Bool.eq_false_iff.mpr fun empty => ?_
  simp only [isEmpty, Bool.and_eq_true, Bool.not_eq_true', List.isEmpty_iff] at empty
  unfold requiresRecreation at anew
  split at anew
  · cases anew
  · simp [empty] at anew

theorem actions_of_requiresRecreation (sqlite : capabilities.family = .sqlite)
    (anew : change.requiresRecreation capabilities = true) :
    change.actions capabilities comments = [.recreateTable change] := by
  simp only [actions, isEmpty_eq_false_of_requiresRecreation anew, sqlite, sqliteActions, anew,
    Bool.false_eq_true, if_true, if_false]

theorem remaining_isCosmetic (sqlite : capabilities.family = .sqlite)
    (oldDistinct : (change.old.columns.map (·.name)).Nodup)
    (newDistinct : (change.new.columns.map (·.name)).Nodup) (keys : change.new.KeysExist)
    (definite : ∀ column ∈ change.added, ∀ default ∈ column.default, default.IsDefinite)
    (inPlace : change.requiresRecreation capabilities = false) : change.remaining.IsCosmetic := by
  rcases of_requiresRecreation_eq_false sqlite inPlace with
    ⟨unaltered, added, removed, key, options, safe⟩
  have sameKey : change.old.primaryKeyColumns = change.new.primaryKeyColumns :=
    bne_eq_false_iff_eq.mp key
  exact {
    added := added_remaining
    removed := removed_remaining
    altered := altered_remaining oldDistinct newDistinct definite unaltered
    addedConstraints := added
    removedConstraints := removed
    primaryKey := bne_eq_false_iff_eq.mpr
      ((primaryKeyColumns_withNewColumns keys sameKey safe).trans sameKey)
    options := options }

/-- Statements that add the new columns of a table and drop those that go, each column once. -/
inductive TakesColumns (change : TableChange) : List Statement → Prop
  | of {additions removals : List Statement}
      (added : List.Forall₂ (fun column statement => statement.IsOf .addColumn
        (Action.columnPath change.new.qualifiedName column.name)) change.added additions)
      (removed : List.Forall₂ (fun column statement => statement.IsOf .dropColumn
        (Action.columnPath change.new.qualifiedName column.name)) change.removed removals) :
      TakesColumns change (additions ++ removals)

end TableChange

namespace Target

variable {target : Target} {change : TableChange} {statements : List Statement}

theorem recreates_of_alterTable (sqlite : target.family = .sqlite)
    (anew : change.requiresRecreation target.capabilities = true)
    (written : target.alterTable change = .ok statements) :
    ∃ statement, statements = [statement] ∧ statement.operation = .recreateTable := by
  rw [alterTable, TableChange.actions_of_requiresRecreation sqlite anew, statements_eq_ok_iff]
    at written
  rcases List.forall₂_cons_left_iff.mp written with ⟨statement, rest, statementOk, noMore, rfl⟩
  rw [List.forall₂_nil_left_iff.mp noMore]
  exact ⟨statement, rfl, operation_of_statement statementOk⟩

theorem takesColumns_of_alterTable (sqlite : target.family = .sqlite)
    (inPlace : change.requiresRecreation target.capabilities = false)
    (written : target.alterTable change = .ok statements) : change.TakesColumns statements := by
  rw [alterTable, TableChange.actions_of_inPlace sqlite inPlace] at written
  rcases statements_append_eq_ok_iff.mp written with ⟨additions, removals, rfl, addedOk, removedOk⟩
  exact .of (forall₂_isOf_of_statements (fun _ => rfl) (fun _ => rfl) addedOk)
    (forall₂_isOf_of_statements (fun _ => rfl) (fun _ => rfl) removedOk)

/-- SQLite builds a table anew in one statement, or else it adds and drops columns, after which
nothing that a statement could change is left to do, where the new columns have defaults that equal
themselves. -/
theorem alterTable_recreates_or_takesColumns (sqlite : target.family = .sqlite)
    (oldDistinct : (change.old.columns.map (·.name)).Nodup)
    (newDistinct : (change.new.columns.map (·.name)).Nodup) (keys : change.new.KeysExist)
    (definite : ∀ column ∈ change.added, ∀ default ∈ column.default, default.IsDefinite) :
    (change.requiresRecreation target.capabilities = true →
      ∀ statements, target.alterTable change = .ok statements →
        ∃ statement, statements = [statement] ∧ statement.operation = .recreateTable) ∧
    (change.requiresRecreation target.capabilities = false →
      (∀ statements, target.alterTable change = .ok statements → change.TakesColumns statements) ∧
        change.remaining.IsCosmetic) :=
  ⟨fun anew _ => recreates_of_alterTable sqlite anew, fun inPlace =>
    ⟨fun _ => takesColumns_of_alterTable sqlite inPlace,
      TableChange.remaining_isCosmetic sqlite oldDistinct newDistinct keys definite inPlace⟩⟩

end Target

/-! ## An example -/

namespace InPlaceExample

/-- A version of SQLite that drops columns. -/
def target : Target := ⟨Capabilities.sqlite.override .dropColumn true, {}⟩

def title : Column := { name := "title", dataType := "text" }

def legacy : Column := { name := "legacy", dataType := "text" }

def summary : Column :=
  { name := "summary", dataType := "text", default := some (.literal (.string "none")) }

def pages (columns : List Column) : Table where
  name := "pages"
  columns := { name := "id", dataType := "integer" } :: columns
  constraints := [{ kind := .primaryKey ["id"] }]

def exchanged : TableChange :=
  ⟨pages [legacy, title], pages [summary, { title with comment := some "Shown first" }]⟩

def retyped : TableChange :=
  ⟨pages [title], pages [{ title with dataType := "integer" }]⟩

def ratio : Column where
  name := "ratio"
  dataType := "real"
  generated := some { expression := "1.0 / id", stored := false }
  default := some (.literal (.float .nan))

def rated : TableChange :=
  ⟨pages [title], pages [title, ratio]⟩

theorem keysExist_pages (columns : List Column) : (pages columns).KeysExist := by
  simp [Table.KeysExist, pages, Constraint.primaryKeyColumns?, Table.hasColumn_iff]

theorem definite_exchanged :
    ∀ column ∈ exchanged.added, ∀ default ∈ column.default, default.IsDefinite := by
  intro column member
  have new := (TableChange.mem_added.mp member).1
  simp only [exchanged, pages, List.mem_cons, List.not_mem_nil, or_false] at new
  rcases new with rfl | rfl | rfl <;> simp [summary, title, Default.IsDefinite, Literal.IsDefinite]

theorem definite_retyped :
    ∀ column ∈ retyped.added, ∀ default ∈ column.default, default.IsDefinite := by
  intro column member
  have new := (TableChange.mem_added.mp member).1
  simp only [retyped, pages, List.mem_cons, List.not_mem_nil, or_false] at new
  rcases new with rfl | rfl <;> simp [title]

end InPlaceExample

open InPlaceExample in
theorem alterTable_recreates_or_takesColumns_pages :
    (exchanged.requiresRecreation target.capabilities = false ∧
      (∃ statements, target.alterTable exchanged = .ok statements ∧
        exchanged.TakesColumns statements ∧
        statements.map (·.sql) = ["ALTER TABLE pages ADD COLUMN summary text DEFAULT 'none'",
          "ALTER TABLE pages DROP COLUMN legacy"]) ∧
      exchanged.remaining.IsCosmetic) ∧
    retyped.requiresRecreation target.capabilities = true ∧
      ∃ statement, target.alterTable retyped = .ok [statement] ∧
        statement.operation = .recreateTable := by
  have inPlace : exchanged.requiresRecreation target.capabilities = false := by decide +kernel
  have anew : retyped.requiresRecreation target.capabilities = true := by decide +kernel
  have exchange := (@Target.alterTable_recreates_or_takesColumns target exchanged rfl (by decide)
    (by decide) (keysExist_pages _) definite_exchanged).2 inPlace
  have retype := (@Target.alterTable_recreates_or_takesColumns target retyped rfl (by decide)
    (by decide) (keysExist_pages _) definite_retyped).1 anew
  have exchangeWritten : ∃ statements, target.alterTable exchanged = .ok statements ∧
      statements.map (·.sql) = ["ALTER TABLE pages ADD COLUMN summary text DEFAULT 'none'",
        "ALTER TABLE pages DROP COLUMN legacy"] := by
    decide +kernel
  have retypeWritten : ∃ statements, target.alterTable retyped = .ok statements := by
    decide +kernel
  rcases exchangeWritten with ⟨exchangeStatements, exchangeDone, texts⟩
  rcases retypeWritten with ⟨retypeStatements, retypeDone⟩
  rcases retype retypeStatements retypeDone with ⟨statement, rfl, recreates⟩
  exact ⟨⟨inPlace,
      ⟨exchangeStatements, exchangeDone, exchange.1 _ exchangeDone, texts⟩, exchange.2⟩,
    anew, statement, retypeDone, recreates⟩

open InPlaceExample in
theorem alterTable_leaves_undefined_ratio :
    (rated.old.columns.map (·.name)).Nodup ∧ (rated.new.columns.map (·.name)).Nodup ∧
      rated.old.KeysExist ∧ rated.new.KeysExist ∧
      rated.requiresRecreation target.capabilities = false ∧
      (∃ statements, target.alterTable rated = .ok statements ∧ statements.map (·.sql) =
        ["ALTER TABLE pages ADD COLUMN ratio real GENERATED ALWAYS AS (1.0 / id) VIRTUAL"]) ∧
      ∃ pair ∈ rated.remaining.altered, pair.isStructural = true := by
  refine ⟨by decide, by decide, keysExist_pages _, keysExist_pages _, ?_⟩
  decide +kernel

end SchemaDdl
