import SchemaDdl.Proofs.Writing.Twins

/-!
# Tables under another name

The text of a table holds the name of the table at one place, and nothing else in it depends on the
name. A table that cannot be written has the same faults under every name, but each of them is told
of the table under the name that it has.
-/

namespace SchemaDdl

/-! ## Faults of a table -/

inductive TableFault where
  | noColumns
  | number (column dataType : String)
  | default (column : String) (reason : DefaultDefect)
  | lacks (construct : Construct)
  /-- An exclusion constraint where there are none. -/
  | exclusion (constraint : Constraint)
deriving DecidableEq, Repr

namespace TableFault

def defect (dialect : Dialect) (table : QualifiedName) : TableFault → Defect
  | .noColumns => .emptyTable table
  | .number column dataType => .invalidAutoIncrement table column dataType dialect
  | .default column reason => .unsupportedDefault table column reason
  | .lacks construct => .unsupportedConstruct table.text construct dialect
  | .exclusion constraint =>
      .unsupportedConstruct s!"{table.text}.{constraint.effectiveName table.name}"
        .exclusionConstraints dialect

/-- The failure that some faults of a table amount to; none for no fault. -/
def failure? (dialect : Dialect) (table : QualifiedName) (faults : List TableFault) :
    Option Failure :=
  Failure.ofDefects? (faults.map (defect dialect table))

theorem exists_failure (dialect : Dialect) (table : QualifiedName) (fault : TableFault)
    (faults : List TableFault) :
    ∃ failure, failure? dialect table (fault :: faults) = some failure := by
  cases faults with
  | nil => exact ⟨_, rfl⟩
  | cons second faults => exact ⟨_, rfl⟩

end TableFault

/-! ## Longer names -/

section

variable {schema : Option String} {name longer : String}

theorem Constraint.length_effectiveName_le (constraint : Constraint)
    (shorter : name.length ≤ longer.length) :
    (constraint.effectiveName name).length ≤ (constraint.effectiveName longer).length := by
  unfold effectiveName
  cases constraint.name with
  | some own => exact Nat.le_refl _
  | none =>
    cases constraint.kind with
    | exclusion exclusion =>
      dsimp only
      split <;> simpa [Text.toString_string] using shorter
    | _ => simpa [Text.toString_string] using shorter

theorem QualifiedName.length_text_lt (shorter : name.length < longer.length) :
    (text ⟨schema, name⟩).length < (text ⟨schema, longer⟩).length := by
  cases schema <;> simpa [text] using shorter

theorem TableFault.defect_ne {dialect : Dialect} (shorter : name.length < longer.length)
    (fault : TableFault) :
    fault.defect dialect ⟨schema, name⟩ ≠ fault.defect dialect ⟨schema, longer⟩ := by
  have names : (⟨schema, name⟩ : QualifiedName) ≠ ⟨schema, longer⟩ := by
    intro same
    cases same
    exact Nat.lt_irrefl _ shorter
  have texts : (QualifiedName.text ⟨schema, name⟩).length <
      (QualifiedName.text ⟨schema, longer⟩).length :=
    QualifiedName.length_text_lt shorter
  intro told
  cases fault with
  | noColumns => exact names (Defect.emptyTable.inj told)
  | number column dataType => exact names (Defect.invalidAutoIncrement.inj told).1
  | default column reason => exact names (Defect.unsupportedDefault.inj told).1
  | lacks construct =>
    exact Nat.ne_of_lt texts (congrArg String.length (Defect.unsupportedConstruct.inj told).1)
  | exclusion constraint =>
    have whole := constraint.length_effectiveName_le (Nat.le_of_lt shorter)
    have same := congrArg String.length (Defect.unsupportedConstruct.inj told).1
    simp only [Text.toString_string, String.length_append] at same
    omega

theorem TableFault.failure_ne {dialect : Dialect} (shorter : name.length < longer.length)
    {faults : List TableFault} {failure other : Failure}
    (told : failure? dialect ⟨schema, name⟩ faults = some failure)
    (retold : failure? dialect ⟨schema, longer⟩ faults = some other) : other ≠ failure := by
  intro same
  rw [same, ← told] at retold
  cases faults with
  | nil => cases told
  | cons fault faults =>
    have first : fault.defect dialect ⟨schema, name⟩ ≠ fault.defect dialect ⟨schema, longer⟩ :=
      fault.defect_ne shorter
    cases faults with
    | nil => exact first (Failure.one.inj (Option.some.inj retold)).symm
    | cons second faults =>
      exact first (List.cons.inj (Failure.several.inj (Option.some.inj retold))).1.symm

end

/-! ## Attempts under two names -/

/-- Two attempts that end with the same value, or with the same fault of a table under two names. -/
inductive Retold (dialect : Dialect) (first second : QualifiedName) {α : Type} :
    Attempt α → Attempt α → Prop
  | ok (value : α) : Retold dialect first second (.ok value) (.ok value)
  | error (fault : TableFault) :
      Retold dialect first second (.error (fault.defect dialect first))
        (.error (fault.defect dialect second))

namespace Retold

variable {dialect : Dialect} {first second : QualifiedName} {α β : Type} {left right : Attempt α}

theorem bind {next next' : α → Attempt β} (retold : Retold dialect first second left right)
    (further : ∀ value, Retold dialect first second (next value) (next' value)) :
    Retold dialect first second (left >>= next) (right >>= next') := by
  cases retold with
  | ok value => exact further value
  | error fault => exact .error fault

theorem map (retold : Retold dialect first second left right) (change : α → β) :
    Retold dialect first second (left.map change) (right.map change) := by
  cases retold with
  | ok value => exact .ok (change value)
  | error fault => exact .error fault

theorem ite {condition : Prop} [Decidable condition] {left' right' : Attempt α}
    (yes : Retold dialect first second left right)
    (no : Retold dialect first second left' right') :
    Retold dialect first second (if condition then left else left')
      (if condition then right else right') := by
  split
  · exact yes
  · exact no

theorem partition {lefts rights : List (Attempt α)}
    (retold : List.Forall₂ (Retold dialect first second) lefts rights) :
    ∃ (faults : List TableFault) (values : List α),
      Attempt.partition lefts = (faults.map (TableFault.defect dialect first), values) ∧
        Attempt.partition rights = (faults.map (TableFault.defect dialect second), values) := by
  induction retold with
  | nil => exact ⟨[], [], rfl, rfl⟩
  | cons head _ induction =>
    obtain ⟨faults, values, found, foundAgain⟩ := induction
    cases head with
    | ok value =>
      refine ⟨faults, value :: values, ?_, ?_⟩
      · rw [Attempt.partition, found]
      · rw [Attempt.partition, foundAgain]
    | error fault =>
      refine ⟨fault :: faults, values, ?_, ?_⟩
      · rw [Attempt.partition, found, List.map_cons]
      · rw [Attempt.partition, foundAgain, List.map_cons]

end Retold

/-! ## The parts of a table -/

def Table.under (table : Table) (name : String) : Table :=
  { table with name, indexes := [] }

namespace Target

variable {target : Target} {table : Table} {name : String}

/-- The attempts of a target that a table of one name and that of another share. -/
abbrev Shares (target : Target) (table : Table) (name : String) {α : Type}
    (left right : Attempt α) : Prop :=
  Retold target.dialect table.qualifiedName (table.under name).qualifiedName left right

theorem shares_integerBase (column : Column) :
    target.Shares table name (target.integerBase table.qualifiedName column)
      (target.integerBase (table.under name).qualifiedName column) := by
  unfold integerBase
  exact .ite (.ok _) (.error (.number column.name column.dataType))

theorem shares_columnType (column : Column) :
    target.Shares table name (target.columnType table column)
      (target.columnType (table.under name) column) := by
  unfold columnType
  cases target.family with
  | postgres =>
    refine .ite (.ok _) ((shares_integerBase column).bind fun base => ?_)
    split <;> exact .ok _
  | sqlite =>
    refine .ite (.ite (.ok _) (.error (.number column.name column.dataType))) ?_
    exact .ite (.ok _) (.ite (.ok _) (.ite (.ok _) (.ok _)))

theorem shares_defaultClause? (column : Column) :
    target.Shares table name (Sql.defaultClause? target.capabilities table.qualifiedName column)
      (Sql.defaultClause? target.capabilities (table.under name).qualifiedName column) := by
  unfold Sql.defaultClause?
  cases column.default with
  | none => exact .ok _
  | some value =>
    refine .ite (.ok _) ?_
    cases Sql.writtenDefault target.capabilities column value with
    | ok text => exact .ok _
    | error reason => exact .error (.default column.name reason)

theorem shares_columnDefinition (column : Column) :
    target.Shares table name (target.columnDefinition table column)
      (target.columnDefinition (table.under name) column) :=
  (shares_columnType column).bind fun _ => (shares_defaultClause? column).bind fun _ => .ok _

theorem shares_requireConstraint (constraint : Constraint) :
    target.Shares table name (target.requireConstraint table constraint)
      (target.requireConstraint (table.under name) constraint) := by
  unfold requireConstraint
  cases constraint.kind with
  | exclusion exclusion => exact .ite (.ok _) (.error (.exclusion constraint))
  | _ => exact .ok _

theorem shares_tableLines (target : Target) (table : Table) (name : String) :
    List.Forall₂ (target.Shares table name) (target.tableLines table)
      (target.tableLines (table.under name)) := by
  have columns : List.Forall₂ (target.Shares table name)
      (table.columns.map (target.columnLine table))
      (table.columns.map (target.columnLine (table.under name))) :=
    forall₂_map fun column _ => (shares_columnDefinition column).map TableLine.column
  have key : List.Forall₂ (target.Shares table name) ((flaggedKeyLines table).map Except.ok)
      ((flaggedKeyLines table).map Except.ok) :=
    forall₂_map fun line _ => .ok line
  have constraints : List.Forall₂ (target.Shares table name)
      (table.constraints.map (target.constraintLine table))
      (table.constraints.map (target.constraintLine (table.under name))) :=
    forall₂_map fun constraint _ => (shares_requireConstraint constraint).map _
  exact List.rel_append (List.rel_append columns key) constraints

theorem shares_partitionText :
    target.Shares table name (target.partitionText table)
      (target.partitionText (table.under name)) := by
  have same : (table.under name).partitioning = table.partitioning := rfl
  unfold partitionText
  rw [same]
  cases table.partitioning with
  | none => exact .ok _
  | some partitioning => exact .bind (.ite (.ok _) (.error (.lacks .partitioning))) fun _ => .ok _

theorem shares_tableEnd (target : Target) (table : Table) (name : String) :
    target.Shares table name (target.tableEnd table) (target.tableEnd (table.under name)) := by
  unfold tableEnd
  cases target.family with
  | postgres =>
    refine .bind ?_ fun inherits => shares_partitionText.bind fun partitioning => .ok _
    exact .ite (.ok _) (.bind (.ite (.ok _) (.error (.lacks .inheritance))) fun _ => .ok _)
  | sqlite =>
    exact .ite (.error (.lacks .partitioning)) (.ite (.error (.lacks .inheritance)) (.ok _))

/-! ## The table as a whole -/

def createTableFront (target : Target) (table : Table) : String :=
  target.createTableVerb table ++ target.ifNotExists

def createTableBody (target : Target) (lines : List TableLine) (ending : String) : String :=
  Text.join ",\n" (lines.map fun line => "    " ++ target.lineText line) ++ "\n)" ++ ending

theorem createTableText_of_partition (columns : table.columns.isEmpty = false)
    {faults endFaults : List TableFault} {lines : List TableLine} {endings : List String}
    (found : Attempt.partition (target.tableLines table) =
      (faults.map (TableFault.defect target.dialect table.qualifiedName), lines))
    (endFound : Attempt.partition [target.tableEnd table] =
      (endFaults.map (TableFault.defect target.dialect table.qualifiedName), endings)) :
    target.createTableText table =
      match TableFault.failure? target.dialect table.qualifiedName (faults ++ endFaults) with
      | some failure => .error failure
      | none => .ok (target.createTableFront table ++ target.qualified table.qualifiedName
          ++ " (\n" ++ target.createTableBody lines (String.join endings)) := by
  have text : target.tableText table lines (String.join endings) =
      target.createTableFront table ++ target.qualified table.qualifiedName
        ++ " (\n" ++ target.createTableBody lines (String.join endings) := by
    simp only [tableText, createTableFront, createTableBody, String.append_assoc]
  have all : TableFault.failure? target.dialect table.qualifiedName (faults ++ endFaults) =
      Failure.ofDefects? (faults.map (TableFault.defect target.dialect table.qualifiedName)
        ++ endFaults.map (TableFault.defect target.dialect table.qualifiedName)) := by
    rw [TableFault.failure?, List.map_append]
  rw [createTableText, if_neg (Bool.eq_false_iff.mp columns), found, endFound, all]
  dsimp only
  cases Failure.ofDefects? (faults.map (TableFault.defect target.dialect table.qualifiedName)
      ++ endFaults.map (TableFault.defect target.dialect table.qualifiedName)) with
  | none => exact congrArg Except.ok text
  | some failure => rfl

/-- A table is created under another name in the same words, the name apart, or it has the same
faults under both names. -/
theorem createTableText_under (target : Target) (table : Table) (name : String) :
    (∃ lines ending,
      target.createTableText table = .ok (target.createTableFront table
        ++ target.qualified table.qualifiedName
        ++ " (\n" ++ target.createTableBody lines ending) ∧
      target.createTableText (table.under name) = .ok (target.createTableFront table
        ++ target.qualified (table.under name).qualifiedName
        ++ " (\n" ++ target.createTableBody lines ending)) ∨
    ∃ faults failure other,
      TableFault.failure? target.dialect table.qualifiedName faults = some failure ∧
      TableFault.failure? target.dialect (table.under name).qualifiedName faults = some other ∧
      target.createTableText table = .error failure ∧
      target.createTableText (table.under name) = .error other := by
  cases empty : table.columns.isEmpty with
  | true =>
    have again : (table.under name).columns.isEmpty = true := empty
    refine .inr ⟨[.noColumns], _, _, rfl, rfl, ?_, ?_⟩
    · rw [createTableText, if_pos empty]
      rfl
    · rw [createTableText, if_pos again]
      rfl
  | false =>
    have again : (table.under name).columns.isEmpty = false := empty
    obtain ⟨faults, lines, found, foundAgain⟩ :=
      Retold.partition (shares_tableLines target table name)
    obtain ⟨endFaults, endings, endFound, endFoundAgain⟩ :=
      Retold.partition (.cons (shares_tableEnd target table name) .nil)
    have written := createTableText_of_partition empty found endFound
    have rewritten := createTableText_of_partition again foundAgain endFoundAgain
    cases all : faults ++ endFaults with
    | nil =>
      rw [all] at written rewritten
      exact .inl ⟨lines, String.join endings, written, rewritten⟩
    | cons fault rest =>
      obtain ⟨failure, told⟩ :=
        TableFault.exists_failure target.dialect table.qualifiedName fault rest
      obtain ⟨other, retold⟩ :=
        TableFault.exists_failure target.dialect (table.under name).qualifiedName fault rest
      rw [all, told] at written
      rw [all, retold] at rewritten
      exact .inr ⟨fault :: rest, failure, other, told, retold, written, rewritten⟩

end Target

end SchemaDdl
