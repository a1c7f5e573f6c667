import SchemaDdl.Proofs.Writing.Column
import SchemaDdl.Writing.Table

/-!
# When a table can be written

All lines of a table are tried before it fails, so it can be written when each of them can.
-/

namespace SchemaDdl

theorem Attempt.partition_defects_eq_nil {α : Type} {attempts : List (Attempt α)} :
    (Attempt.partition attempts).1 = [] ↔ ∀ attempt ∈ attempts, Succeeds attempt := by
  induction attempts with
  | nil => simp [Attempt.partition]
  | cons attempt attempts induction =>
      rw [List.forall_mem_cons, ← induction]
      cases attempt with
      | error defect => simp [Attempt.partition]
      | ok value => simp [Attempt.partition]

theorem Failure.ofDefects?_eq_none {defects : List Defect} :
    Failure.ofDefects? defects = none ↔ defects = [] := by
  rcases defects with _ | ⟨first, _ | ⟨second, others⟩⟩ <;> simp [Failure.ofDefects?]

namespace Target

variable {target : Target} {table : Table}

/-- Whether what follows the columns of a table can be written: SQLite has neither partitions nor
parents. -/
def EndsTable (target : Target) (table : Table) : Prop :=
  match target.family with
  | .postgres =>
      (table.inherits ≠ [] → target.supports .inheritance = true) ∧
        (table.partitioning.isSome = true → target.supports .partitioning = true)
  | .sqlite => table.partitioning = none ∧ table.inherits = []

def TakesConstraint (target : Target) (constraint : Constraint) : Prop :=
  ∀ exclusion, constraint.kind = .exclusion exclusion →
    target.supports .exclusionConstraints = true

structure TakesTable (target : Target) (table : Table) : Prop where
  nonempty : table.columns ≠ []
  columns : ∀ column ∈ table.columns, target.TakesColumn table column
  constraints : ∀ constraint ∈ table.constraints, target.TakesConstraint constraint
  ending : target.EndsTable table

theorem succeeds_requireConstraint {constraint : Constraint} :
    Succeeds (target.requireConstraint table constraint) ↔ target.TakesConstraint constraint := by
  unfold requireConstraint TakesConstraint
  cases constraint.kind <;> simp

theorem succeeds_tableEnd : Succeeds (target.tableEnd table) ↔ target.EndsTable table := by
  unfold tableEnd EndsTable
  cases target.family with
  | postgres =>
      have inherits : Succeeds (target.inheritsText table) ↔
          (table.inherits ≠ [] → target.supports .inheritance = true) := by
        unfold inheritsText
        rw [succeeds_ite_ok, succeeds_bind_of_total fun _ => succeeds_pure _, succeeds_require,
          List.isEmpty_iff, ← or_iff_not_imp_left]
      have partitioning : Succeeds (target.partitionText table) ↔
          (table.partitioning.isSome = true → target.supports .partitioning = true) := by
        unfold partitionText
        cases table.partitioning with
        | none => simp
        | some partitioning => simp
      simp only [postgresTableEnd]
      rw [succeeds_bind_of_forall (Succeeds (target.partitionText table)), inherits, partitioning]
      exact fun _ => succeeds_bind_of_total fun _ => succeeds_pure _
  | sqlite =>
      simp only [sqliteTableEnd]
      cases table.partitioning with
      | some partitioning => simp
      | none =>
          cases table.inherits <;> simp

theorem succeeds_tableLines :
    (∀ line ∈ target.tableLines table, Succeeds line) ↔
      (∀ column ∈ table.columns, target.TakesColumn table column) ∧
        ∀ constraint ∈ table.constraints, target.TakesConstraint constraint := by
  simp only [tableLines, columnLine, constraintLine, List.mem_append, List.mem_map, or_imp,
    forall_and, forall_exists_index, and_imp, forall_apply_eq_imp_iff₂, succeeds_map,
    succeeds_columnDefinition, succeeds_requireConstraint, succeeds_ok, implies_true, and_true]

theorem succeeds_createTableText :
    Succeeds (target.createTableText table) ↔ target.TakesTable table := by
  have lines : (Attempt.partition (target.tableLines table)).1 = [] ↔
      (∀ column ∈ table.columns, target.TakesColumn table column) ∧
        ∀ constraint ∈ table.constraints, target.TakesConstraint constraint :=
    Attempt.partition_defects_eq_nil.trans succeeds_tableLines
  have ending : (Attempt.partition [target.tableEnd table]).1 = [] ↔ target.EndsTable table := by
    rw [Attempt.partition_defects_eq_nil, List.forall_mem_singleton, succeeds_tableEnd]
  unfold createTableText
  rw [succeeds_ite_error, List.isEmpty_iff]
  cases failure : Failure.ofDefects? ((Attempt.partition (target.tableLines table)).1
      ++ (Attempt.partition [target.tableEnd table]).1) with
  | some found =>
      simp only [failure, not_succeeds_error, and_false, false_iff]
      intro takes
      have flawless : Failure.ofDefects? _ = none := Failure.ofDefects?_eq_none.mpr
        (List.append_eq_nil_iff.mpr ⟨lines.mpr ⟨takes.columns, takes.constraints⟩,
          ending.mpr takes.ending⟩)
      rw [flawless] at failure
      cases failure
  | none =>
      simp only [failure, succeeds_ok, and_true]
      rcases List.append_eq_nil_iff.mp (Failure.ofDefects?_eq_none.mp failure) with
        ⟨noLine, noEnding⟩
      rcases lines.mp noLine with ⟨columns, constraints⟩
      exact ⟨fun nonempty => ⟨nonempty, columns, constraints, ending.mp noEnding⟩,
        fun takes => takes.nonempty⟩

end Target

end SchemaDdl
