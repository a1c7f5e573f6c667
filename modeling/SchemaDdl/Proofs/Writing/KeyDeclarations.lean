import SchemaDdl.Capability.BuiltIn
import SchemaDdl.Proofs.Sql.Reading
import SchemaDdl.Proofs.Writing.Table

/-!
# Declarations of the primary key

A table may state its primary key by the flag of a column, by the flags of several columns, or by a
constraint, and each of the three is written in another place: in the definition of the column, on a
line of its own, and on the line of the constraint. However they are mixed, one place declares the
key, with the columns that the table has as its key, as they are read from the texts of the lines
and clauses.
-/

namespace SchemaDdl

namespace Sql

def isKeyClause (text : List Char) : Bool :=
  match Text.after? " PRIMARY KEY".toList text with
  | some rest => rest.isEmpty || rest == " AUTOINCREMENT".toList
  | none => false

def readKey? (family : Family) (text : List Char) : Option (List String) := do
  let columns ← Text.after? "PRIMARY KEY (".toList text
  if columns = [')'] then return []
  let (names, rest) ← readNames? family columns
  if rest.isEmpty then return names else none

/-- The columns of a primary key that is stated on a line of its own, with a name or without one. -/
def readKeyLine? (family : Family) (text : List Char) : Option (List String) :=
  match Text.after? "CONSTRAINT ".toList text with
  | none => readKey? family text
  | some named => do
      let (_, rest) ← readName? family named
      readKey? family (← Text.after? " ".toList rest)

end Sql

/-- The primary keys that a line declares, each with the columns it names, as they are read from the
texts that the line is made of. A clause of a column names the column of its line. -/
def Target.declaredKeys (target : Target) : TableLine → List (List String)
  | .column definition =>
      (definition.clauses.map target.clauseText).filterMap fun clause =>
        if Sql.isKeyClause clause.toList then
          (Sql.readName? target.family (target.definitionText definition).toList).map fun read =>
            [read.1]
        else none
  | line => (Sql.readKeyLine? target.family (target.lineText line).toList).toList

/-- Whether a table has a primary key: a column with the flag, or a constraint. -/
def Table.HasPrimaryKey (table : Table) : Prop :=
  (∃ column ∈ table.columns, column.primaryKey = true) ∨
    ∃ constraint ∈ table.constraints, constraint.isPrimaryKey = true

instance (table : Table) : Decidable table.HasPrimaryKey :=
  inferInstanceAs (Decidable (_ ∨ _))

/-! ## Lines of a table -/

theorem Attempt.eq_map_ok_of_partition {α : Type} {attempts : List (Attempt α)}
    (flawless : (Attempt.partition attempts).1 = []) :
    attempts = (Attempt.partition attempts).2.map .ok := by
  induction attempts with
  | nil => rfl
  | cons attempt attempts induction =>
      cases attempt with
      | error defect => cases flawless
      | ok value => exact congrArg (.ok value :: ·) (induction flawless)

theorem flatMap_of_map_eq_ok {α β γ : Type} {attempt : α → Attempt β} {gives : β → List γ}
    {given : α → List γ} (each : ∀ item value, attempt item = .ok value → gives value = given item)
    {items : List α} {values : List β} (done : items.map attempt = values.map .ok) :
    values.flatMap gives = items.flatMap given := by
  induction items generalizing values with
  | nil =>
      cases values with
      | nil => rfl
      | cons value values => cases done
  | cons item items induction =>
      cases values with
      | nil => cases done
      | cons value values =>
          rw [List.map_cons, List.map_cons, List.cons.injEq] at done
          rw [List.flatMap_cons, List.flatMap_cons, each item value done.1, induction done.2]

namespace Target

variable {target : Target} {table : Table} {lines : List TableLine}

theorem exists_lines_of_createTableText {text : String}
    (written : target.createTableText table = .ok text) :
    ∃ lines ending, target.tableLines table = lines.map .ok ∧ target.tableEnd table = .ok ending ∧
      text = target.tableText table lines ending := by
  unfold createTableText at written
  split at written
  · cases written
  · simp only [] at written
    split at written
    · cases written
    · rename_i flawless
      cases written
      rcases List.append_eq_nil_iff.mp (Failure.ofDefects?_eq_none.mp flawless) with
        ⟨noLine, noEnding⟩
      have ends := Attempt.eq_map_ok_of_partition noEnding
      refine ⟨_, _, Attempt.eq_map_ok_of_partition noLine, ?_, rfl⟩
      cases ending : target.tableEnd table with
      | error defect =>
          rw [ending] at noEnding
          cases noEnding
      | ok ending => simp [Attempt.partition, String.join]

/-! ## Keys of lines -/

def clauseKey? (column : String) : ColumnClause → Option (List String)
  | .primaryKey _ => some [column]
  | .identity | .generated _ | .notNull | .unique | .default _ | .references _ | .check _
  | .collate _ => none

theorem isKeyClause_clauseText (column : String) (clause : ColumnClause) :
    Sql.isKeyClause (target.clauseText clause).toList = (clauseKey? column clause).isSome := by
  cases clause with
  | primaryKey automatic =>
      rw [clauseText]
      cases automatic && decide (target.family = .sqlite) with
      | true => rfl
      | false => rfl
  | identity | generated | notNull | unique | default | references | check | collate =>
      rcases exists_clauseText target _ with ⟨rest, text⟩
      rw [text, clauseOpening, String.toList_append]
      rfl

theorem readName?_definitionText (definition : ColumnDefinition) :
    ∃ rest, Sql.readName? target.family (target.definitionText definition).toList =
      some (definition.name, rest) := by
  have text : (target.definitionText definition).toList =
      (Sql.identifier target.family definition.name).toList ++ ' ' :: (definition.type.toList
        ++ (String.join (definition.clauses.map target.clauseText)).toList) := by
    delta definitionText
    simp only [toString, String.toList_append, List.append_assoc]
    rfl
  rw [text]
  exact ⟨_, Sql.readName?_identifier fun next member => (Sql.endsName_blank next member).1⟩

theorem declaredKeys_column (definition : ColumnDefinition) :
    target.declaredKeys (.column definition) =
      definition.clauses.filterMap (clauseKey? definition.name) := by
  rcases @readName?_definitionText target definition with ⟨rest, named⟩
  rw [declaredKeys, List.filterMap_map]
  refine List.filterMap_congr fun clause _ => ?_
  simp only [named, Function.comp_apply, isKeyClause_clauseText definition.name]
  cases clause <;> rfl

def constraintOpening : ConstraintKind → String
  | .primaryKey _ => "PRIMARY KEY ("
  | .unique _ => "UNIQUE ("
  | .check _ => "CHECK ("
  | .foreignKey _ => "FOREIGN KEY ("
  | .exclusion _ => "EXCLUDE USING "

theorem exists_constraintKindText (target : Target) (kind : ConstraintKind) :
    ∃ rest, target.constraintKindText kind = constraintOpening kind ++ rest := by
  cases kind with
  | primaryKey | unique | check =>
      rw [constraintKindText, constraintOpening]
      dsimp only [toString]
      rw [String.append_assoc]
      exact ⟨_, rfl⟩
  | foreignKey =>
      rw [constraintKindText, constraintOpening]
      dsimp only [foreignKeyText, toString]
      simp only [String.append_assoc]
      exact ⟨_, rfl⟩
  | exclusion =>
      rw [constraintKindText, constraintOpening]
      dsimp only [exclusionText, toString]
      simp only [String.append_assoc]
      exact ⟨_, rfl⟩

theorem readKey?_primaryKey (columns : List String) :
    Sql.readKey? target.family
      (target.constraintKindText (.primaryKey columns)).toList = some columns := by
  have text : (target.constraintKindText (.primaryKey columns)).toList =
      "PRIMARY KEY (".toList ++ ((Sql.identifierList target.family columns).toList ++ [')']) := by
    rw [constraintKindText]
    simp only [toString, String.toList_append, List.append_assoc]
    rfl
  rw [text, Sql.readKey?, Text.after?_append, Option.bind_eq_bind, Option.bind_some]
  cases columns with
  | nil => rfl
  | cons first others =>
      have read := @Sql.readNames?_append target.family [] first others
      have more : (Sql.identifierList target.family (first :: others)).toList ++ [')'] ≠ [')'] := by
        intro alone
        rw [alone, Sql.readNames?] at read
        cases read
      rw [if_neg more, read]
      rfl

theorem readKey?_constraintKindText (constraint : Constraint) :
    Sql.readKey? target.family (target.constraintKindText constraint.kind).toList =
      constraint.primaryKeyColumns? := by
  rw [Constraint.primaryKeyColumns?]
  cases constraint.kind with
  | primaryKey columns => exact readKey?_primaryKey columns
  | unique | check | foreignKey | exclusion =>
      rcases exists_constraintKindText target _ with ⟨rest, text⟩
      rw [text, constraintOpening, String.toList_append]
      rfl

theorem readKeyLine?_constraintText (constraint : Constraint) :
    Sql.readKeyLine? target.family (target.constraintText constraint).toList =
      constraint.primaryKeyColumns? := by
  rw [← @readKey?_constraintKindText target, constraintText]
  cases constraint.name with
  | none =>
      have unnamed : Text.after? "CONSTRAINT ".toList
          (target.constraintKindText constraint.kind).toList = none := by
        rcases exists_constraintKindText target constraint.kind with ⟨rest, text⟩
        rw [text, String.toList_append]
        cases constraint.kind <;> rw [constraintOpening] <;> rfl
      rw [phraseIfSome, String.empty_append, Sql.readKeyLine?, unnamed]
  | some name =>
      have text : (phraseIfSome (some name) (fun name => s!"CONSTRAINT {target.identifier name} ")
          ++ target.constraintKindText constraint.kind).toList =
          "CONSTRAINT ".toList ++ ((Sql.identifier target.family name).toList
            ++ (" ".toList ++ (target.constraintKindText constraint.kind).toList)) := by
        simp only [phraseIfSome, toString, String.toList_append, List.append_assoc]
        rfl
      have named : Sql.readName? target.family ((Sql.identifier target.family name).toList
          ++ (" ".toList ++ (target.constraintKindText constraint.kind).toList)) =
          some (name, " ".toList ++ (target.constraintKindText constraint.kind).toList) :=
        Sql.readName?_identifier fun next member => (Sql.endsName_blank next member).1
      rw [text, Sql.readKeyLine?, Text.after?_append]
      simp only [named, Text.after?_append, Option.bind_eq_bind, Option.bind_some]

theorem declaredKeys_columnLine {column : Column} {line : TableLine}
    (written : target.columnLine table column = .ok line) :
    target.declaredKeys line =
      if column.primaryKey && !table.hasTableLevelPrimaryKey then [[column.name]] else [] := by
  rcases map_eq_ok_iff.mp written with ⟨definition, defined, rfl⟩
  rcases bind_eq_ok_iff.mp defined with ⟨type, _, defined⟩
  rcases bind_eq_ok_iff.mp defined with ⟨clause, _, defined⟩
  cases defined
  have clauses : (keyClauses table column).filterMap (clauseKey? column.name) =
      if column.primaryKey && !table.hasTableLevelPrimaryKey then [[column.name]] else [] := by
    unfold keyClauses
    cases column.primaryKey && !table.hasTableLevelPrimaryKey <;> cases column.nullable <;>
      cases column.unique <;> rfl
  rw [declaredKeys_column, filterMap_columnClauses, clauses]
  simp [clauseKey?]

theorem declaredKeys_constraintLine {constraint : Constraint} {line : TableLine}
    (written : target.constraintLine table constraint = .ok line) :
    target.declaredKeys line = constraint.primaryKeyColumns?.toList := by
  rcases map_eq_ok_iff.mp written with ⟨_, _, rfl⟩
  exact congrArg Option.toList (readKeyLine?_constraintText constraint)

theorem declaredKeys_primaryKey (columns : List String) :
    target.declaredKeys (.primaryKey columns) = [columns] := by
  have text : target.lineText (.primaryKey columns) =
      target.constraintText { kind := .primaryKey columns } := by
    rw [lineText, constraintText, phraseIfSome, String.empty_append]
    rfl
  rw [declaredKeys, text, readKeyLine?_constraintText]
  · rfl
  · exact nofun

theorem flatMap_columnKeys (table : Table) :
    table.columns.flatMap (fun column =>
        if column.primaryKey && !table.hasTableLevelPrimaryKey then [[column.name]] else []) =
      if table.hasTableLevelPrimaryKey then []
      else table.flaggedColumns.map fun name => [name] := by
  cases table.hasTableLevelPrimaryKey with
  | true => simp
  | false =>
      unfold Table.flaggedColumns
      induction table.columns with
      | nil => rfl
      | cons column columns induction =>
          rw [List.flatMap_cons, induction]
          cases flagged : column.primaryKey <;> simp [flagged]

theorem declaredKeys_tableLines (written : target.tableLines table = lines.map .ok) :
    lines.flatMap target.declaredKeys =
      (if table.hasTableLevelPrimaryKey then [] else table.flaggedColumns.map fun name => [name])
        ++ (flaggedKeyLines table).flatMap target.declaredKeys
        ++ table.constraints.filterMap Constraint.primaryKeyColumns? := by
  rcases List.map_eq_append_iff.mp written.symm with
    ⟨front, constraints, rfl, frontOk, constraintsOk⟩
  rcases List.map_eq_append_iff.mp frontOk with ⟨columns, flagged, rfl, columnsOk, flaggedOk⟩
  have same : flagged = flaggedKeyLines table :=
    (List.map_injective_iff.mpr fun _ _ => Except.ok.inj) flaggedOk
  rw [List.flatMap_append, List.flatMap_append,
    flatMap_of_map_eq_ok (fun _ _ => declaredKeys_columnLine) columnsOk.symm, flatMap_columnKeys,
    same,
    flatMap_of_map_eq_ok (fun _ _ => declaredKeys_constraintLine) constraintsOk.symm,
    List.filterMap_eq_flatMap_toList]

end Target

/-! ## The key of a table -/

namespace Table

variable {table : Table}

def constraintKey? (table : Table) : Option (List String) :=
  table.constraints.findSome? Constraint.primaryKeyColumns?

theorem isSome_primaryKeyColumns? (constraint : Constraint) :
    constraint.primaryKeyColumns?.isSome = constraint.isPrimaryKey := by
  unfold Constraint.primaryKeyColumns? Constraint.isPrimaryKey
  cases constraint.kind <;> rfl

theorem isSome_constraintKey? : table.constraintKey?.isSome = table.hasPrimaryKeyConstraint := by
  rw [constraintKey?, List.isSome_findSome?, hasPrimaryKeyConstraint]
  exact congrArg table.constraints.any (funext isSome_primaryKeyColumns?)

theorem filterMap_primaryKeyColumns?
    (single : table.constraints.countP Constraint.isPrimaryKey ≤ 1) :
    table.constraints.filterMap Constraint.primaryKeyColumns? = table.constraintKey?.toList := by
  have length : (table.constraints.filterMap Constraint.primaryKeyColumns?).length ≤ 1 := by
    rw [List.length_filterMap_eq_countP]
    exact (funext isSome_primaryKeyColumns?) ▸ single
  rw [constraintKey?, ← List.head?_filterMap]
  rcases found : table.constraints.filterMap Constraint.primaryKeyColumns? with _ | ⟨key, _ | _⟩
  · rfl
  · rfl
  · rw [found] at length
    simp at length

theorem flaggedColumns_eq_nil_iff :
    table.flaggedColumns = [] ↔ ¬∃ column ∈ table.columns, column.primaryKey = true := by
  simp [flaggedColumns]

theorem hasPrimaryKey_iff :
    table.HasPrimaryKey ↔ table.flaggedColumns ≠ [] ∨ table.constraintKey?.isSome = true := by
  rw [isSome_constraintKey?, hasPrimaryKeyConstraint, List.any_eq_true, ne_eq,
    flaggedColumns_eq_nil_iff, not_not]
  rfl

end Table

/-- A table that has a primary key declares it in one place, with the columns that it has as its
key, and a table without one declares none. -/
theorem Target.createTableText_declaresKey {target : Target} {table : Table} {text : String}
    (single : table.constraints.countP Constraint.isPrimaryKey ≤ 1)
    (written : target.createTableText table = .ok text) :
    ∃ lines ending, target.tableLines table = lines.map .ok ∧ target.tableEnd table = .ok ending ∧
      text = target.tableText table lines ending ∧
      lines.flatMap target.declaredKeys =
        if table.HasPrimaryKey then [table.primaryKeyColumns] else [] := by
  rcases exists_lines_of_createTableText written with ⟨lines, ending, linesOk, endingOk, rfl⟩
  refine ⟨lines, ending, linesOk, endingOk, rfl, ?_⟩
  have constraint : table.hasPrimaryKeyConstraint = table.constraintKey?.isSome :=
    table.isSome_constraintKey?.symm
  rw [declaredKeys_tableLines linesOk, table.filterMap_primaryKeyColumns? single]
  simp only [Table.hasPrimaryKey_iff, Table.primaryKeyColumns, Table.hasTableLevelPrimaryKey,
    flaggedKeyLines, constraint, ← Table.constraintKey?.eq_def]
  cases table.constraintKey? with
  | some key => simp
  | none =>
      -- Without a constraint, the number of flagged columns decides where the key is declared.
      rcases table.flaggedColumns with _ | ⟨first, _ | ⟨second, others⟩⟩
      · simp
      · simp
      · simp [declaredKeys_primaryKey]

/-! ## An example -/

namespace KeyExample

def notes : Table where
  name := "notes"
  columns :=
    [{ name := "tenant_id", dataType := "uuid" },
      { name := "id", dataType := "uuid", primaryKey := true }]
  constraints := [{ name := some "notes_key", kind := .primaryKey ["tenant_id", "id"] }]

def labels : Table where
  name := "labels"
  columns :=
    [{ name := "id", dataType := "integer", primaryKey := true, autoIncrement := true },
      { name := "title", dataType := "text" }]
  constraints := [{ kind := .unique ["title"] }]

def sqlite : Target :=
  ⟨.sqlite, {}⟩

def notesText : String :=
  "CREATE TABLE notes (\n    tenant_id TEXT,\n    id TEXT,\n"
    ++ "    CONSTRAINT notes_key PRIMARY KEY (tenant_id, id)\n)"

def labelsText : String :=
  "CREATE TABLE labels (\n    id INTEGER PRIMARY KEY AUTOINCREMENT,\n    title text,\n"
    ++ "    UNIQUE (title)\n)"

end KeyExample

open KeyExample in
/-- The constraint declares the key of the notes, and the flag does not; it does that of the labels.
-/
theorem createTableText_declaresKey_notes :
    (notes.constraints.countP Constraint.isPrimaryKey ≤ 1 ∧
      sqlite.createTableText notes = .ok notesText ∧
      ∃ lines : List TableLine, sqlite.tableLines notes = lines.map .ok ∧
        lines.flatMap sqlite.declaredKeys = [["tenant_id", "id"]]) ∧
    labels.constraints.countP Constraint.isPrimaryKey ≤ 1 ∧
      sqlite.createTableText labels = .ok labelsText ∧
      ∃ lines : List TableLine, sqlite.tableLines labels = lines.map .ok ∧
        lines.flatMap sqlite.declaredKeys = [["id"]] := by
  have notesSingle : notes.constraints.countP Constraint.isPrimaryKey ≤ 1 := by decide
  have notesWritten : sqlite.createTableText notes = .ok notesText := by decide +kernel
  have labelsSingle : labels.constraints.countP Constraint.isPrimaryKey ≤ 1 := by decide
  have labelsWritten : sqlite.createTableText labels = .ok labelsText := by decide +kernel
  rcases Target.createTableText_declaresKey notesSingle notesWritten with
    ⟨notesLines, _, notesOk, _, _, notesDeclared⟩
  rcases Target.createTableText_declaresKey labelsSingle labelsWritten with
    ⟨labelsLines, _, labelsOk, _, _, labelsDeclared⟩
  rw [if_pos (by decide)] at notesDeclared labelsDeclared
  exact ⟨⟨notesSingle, notesWritten, notesLines, notesOk, notesDeclared⟩,
    labelsSingle, labelsWritten, labelsLines, labelsOk, labelsDeclared⟩

end SchemaDdl
