import SchemaDdl.Proofs.DeclaredType.Widening
import SchemaDdl.Proofs.Writing.Default
import SchemaDdl.Writing.Column

/-!
# When a column can be written

A column can be written when its numbers can be made by the database, if it asks for that, and when
its default has a meaning.
-/

namespace SchemaDdl

/-- Whether a family of dialects numbers a column of a table: the Postgres family numbers whole
numbers of three sizes, and SQLite the sole column of a primary key. -/
def Table.Numbers (family : Family) (table : Table) (column : Column) : Prop :=
  match family with
  | .postgres => (DeclaredType.integerDigits? column.canonicalType).isSome = true
  | .sqlite =>
      column.primaryKey = true ∧ table.hasTableLevelPrimaryKey = false ∧
        DeclaredType.isInteger column.canonicalType = true

/-- Whether the default of a column has a meaning; that of a computed column does not count. -/
def Column.DefaultFits (dialect : Dialect) (column : Column) : Prop :=
  column.generated = none → ∀ value, column.default = some value → value.Fits dialect column

namespace Target

variable {target : Target} {table : Table} {column : Column}

@[simp] theorem not_succeeds_unsupported {α : Type} {object : String} {construct : Construct} :
    ¬Succeeds (target.unsupported object construct : Attempt α) :=
  not_succeeds_error _

@[simp] theorem succeeds_ite_unsupported {α : Type} {condition : Prop} [Decidable condition]
    {object : String} {construct : Construct} {attempt : Attempt α} :
    Succeeds (if condition then target.unsupported object construct else attempt) ↔
      ¬condition ∧ Succeeds attempt :=
  succeeds_ite_error

@[simp] theorem succeeds_require {feature : Feature} {object : String} {construct : Construct} :
    Succeeds (target.require feature object construct) ↔ target.supports feature = true := by
  unfold require
  split <;> simp [*]

theorem succeeds_integerBase {name : QualifiedName} :
    Succeeds (target.integerBase name column) ↔
      (DeclaredType.integerDigits? column.canonicalType).isSome = true := by
  unfold integerBase DeclaredType.integerDigits?
  simp

theorem succeeds_columnType :
    Succeeds (target.columnType table column) ↔
      (column.autoIncrement = true → table.Numbers target.family column) := by
  unfold columnType Table.Numbers
  cases numbered : column.autoIncrement with
  | false =>
      cases target.family with
      | postgres => simp [postgresType, numbered]
      | sqlite => simp [sqliteType, numbered]
  | true =>
      cases target.family with
      | postgres =>
          have written : Succeeds (target.postgresType table column) ↔
              Succeeds (target.integerBase table.qualifiedName column) := by
            unfold postgresType
            simp only [numbered, Bool.not_true, Bool.false_eq_true, if_false]
            refine succeeds_bind_of_total fun base => ?_
            split <;> simp
          simp only [written, succeeds_integerBase, true_implies]
      | sqlite => simp [sqliteType, numbered, and_assoc]

theorem filterMap_columnClauses {α : Type} (read : ColumnClause → Option α)
    (default : Option String) :
    (target.columnClauses table column default).filterMap read =
      (if target.family = .postgres && target.usesIdentity column then
          (read .identity).toList else [])
        ++ (column.generated.bind fun generation => read (.generated generation)).toList
        ++ (keyClauses table column).filterMap read
        ++ (default.bind fun text => read (.default text)).toList
        ++ (column.references.bind fun reference => read (.references reference)).toList
        ++ (column.check.bind fun expression => read (.check expression)).toList
        ++ (column.collation.bind fun collation => read (.collate collation)).toList := by
  have optional : ∀ {β : Type} (value : Option β) (clause : β → ColumnClause),
      (value.map clause).toList.filterMap read =
        (value.bind fun part => read (clause part)).toList := by
    intro β value clause
    cases value with
    | none => rfl
    | some part => cases found : read (clause part) <;> simp [found]
  have identity : (if target.family = .postgres && target.usesIdentity column then
      [ColumnClause.identity] else []).filterMap read =
        if target.family = .postgres && target.usesIdentity column then
          (read .identity).toList else [] := by
    split
    · cases found : read .identity <;> simp [found]
    · rfl
  simp only [columnClauses, List.filterMap_append, optional, identity]

def clauseOpening : ColumnClause → String
  | .identity => " GENERATED BY DEFAULT AS IDENTITY"
  | .generated _ => " GENERATED ALWAYS AS ("
  | .primaryKey _ => " PRIMARY KEY"
  | .notNull => " NOT NULL"
  | .unique => " UNIQUE"
  | .default _ => " DEFAULT "
  | .references _ => " REFERENCES "
  | .check _ => " CHECK ("
  | .collate _ => " COLLATE "

theorem exists_clauseText (target : Target) (clause : ColumnClause) :
    ∃ rest, target.clauseText clause = clauseOpening clause ++ rest := by
  cases clause with
  | identity | notNull | unique =>
      refine ⟨"", ?_⟩
      rw [clauseText, clauseOpening, String.append_empty]
  | primaryKey | default =>
      rw [clauseText, clauseOpening]
      exact ⟨_, rfl⟩
  | check =>
      rw [clauseText, clauseOpening]
      dsimp only [toString]
      rw [String.append_assoc]
      exact ⟨_, rfl⟩
  | generated =>
      rw [clauseText, clauseOpening]
      dsimp only [generatedText, toString]
      rw [String.append_assoc, String.append_assoc]
      exact ⟨_, rfl⟩
  | references =>
      rw [clauseText, clauseOpening]
      dsimp only [referencesText, toString]
      simp only [String.append_assoc]
      exact ⟨_, rfl⟩
  | collate =>
      rw [clauseText, clauseOpening]
      dsimp only [collateText]
      cases target.family with
      | postgres => exact ⟨_, rfl⟩
      | sqlite => exact ⟨_, rfl⟩

def TakesColumn (target : Target) (table : Table) (column : Column) : Prop :=
  (column.autoIncrement = true → table.Numbers target.family column) ∧
    column.DefaultFits target.dialect

theorem succeeds_columnDefinition :
    Succeeds (target.columnDefinition table column) ↔ target.TakesColumn table column := by
  unfold columnDefinition
  rw [succeeds_bind_of_forall (column.DefaultFits target.dialect), succeeds_columnType, TakesColumn]
  intro type
  rw [succeeds_bind_of_total fun _ => succeeds_pure _]
  exact Sql.succeeds_defaultClause?

end Target

end SchemaDdl
