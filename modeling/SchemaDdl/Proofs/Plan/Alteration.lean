import SchemaDdl.Capability.BuiltIn
import SchemaDdl.Proofs.Change.Danger
import SchemaDdl.Proofs.Plan.Statements
import SchemaDdl.Proofs.Writing.Column

/-!
# Alterations that endanger rows

Which alterations of a table are flagged. On the Postgres family every statement has a flag of its
own; together they say neither more nor less than why the change endangers rows.
-/

namespace SchemaDdl

variable {family : Family}

/-! ## Columns on the Postgres family -/

@[simp] theorem any_actionIf {condition : Bool} {action : Action} {holds : Action → Bool} :
    (actionIf condition action).any holds = (condition && holds action) := by
  cases condition <;> simp [actionIf]

theorem ColumnConstraint.any_destructive_actions (old new : Table) (pair : ColumnChange)
    (constraint : ColumnConstraint) :
    (constraint.actions old new pair).any (·.destructive family) =
      (constraint.changed pair && (constraint.kind? pair.new).isSome) := by
  unfold actions
  cases constraint.changed pair with
  | false => rfl
  | true => cases constraint.kind? pair.old <;> cases constraint.kind? pair.new <;> rfl

def ColumnChange.convertsToInteger (pair : ColumnChange) : Bool :=
  pair.identityChanged && pair.new.autoIncrement
    && !DeclaredType.isInteger pair.old.canonicalType

namespace TableChange

variable {change : TableChange}

theorem any_destructive_identityActions (pair : ColumnChange) :
    (change.identityActions pair).any (·.destructive family) = pair.convertsToInteger := by
  unfold identityActions ColumnChange.convertsToInteger
  cases pair.identityChanged <;> cases pair.new.autoIncrement <;> simp [ColumnAction.destructive]

theorem any_destructive_columnActions (comments : Bool) (pair : ColumnChange) :
    (change.columnActions comments pair).any (·.destructive .postgres) =
      (pair.isDestructive || pair.convertsToInteger) := by
  have unique : (ColumnConstraint.unique.kind? pair.new).isSome = pair.new.unique := by
    cases unique : pair.new.unique <;> simp [ColumnConstraint.kind?, unique]
  have reference : (ColumnConstraint.foreignKey.kind? pair.new).isSome =
      pair.new.references.isSome := Option.isSome_map
  have check : (ColumnConstraint.check.kind? pair.new).isSome = pair.new.check.isSome :=
    Option.isSome_map
  have type : ∀ convert, (ColumnAction.setType convert).destructive = convert := fun _ => rfl
  have nullability : (pair.nullabilityChanged && ColumnAction.destructive
      (if pair.new.nullable then .dropNotNull else .setNotNull)) = pair.tightensNullability := by
    unfold ColumnChange.nullabilityChanged ColumnChange.tightensNullability
    cases pair.old.nullable <;> cases pair.new.nullable <;> rfl
  have default : ColumnAction.setDefault.destructive = false := rfl
  have expression : ColumnAction.dropExpression.destructive = false := rfl
  unfold columnActions ColumnChange.isDestructive
  cases pair.regenerates with
  | true =>
      -- The column is dropped and added again, and both statements are flagged.
      simp
  | false =>
      simp only [Bool.false_eq_true, if_false, List.any_append, any_actionIf, List.any_flatMap,
        List.any_cons, List.any_nil, ColumnConstraint.any_destructive_actions,
        any_destructive_identityActions, Action.destructive_alterColumn,
        Action.destructive_commentColumn, ColumnConstraint.changed, unique, reference, check, type,
        nullability, default, expression, Bool.and_false, Bool.or_false]
      simp only [Bool.or_assoc, Bool.or_comm, Bool.or_left_comm]

private theorem any_const_true {α : Type} (items : List α) :
    (items.any fun _ => true) = !items.isEmpty := by
  cases items <;> rfl

theorem any_destructive_addedColumns :
    (change.added.map fun column =>
        Action.addColumn change.new (change.addedColumn column) false).any
        (·.destructive .postgres) =
      change.added.any fun column => column.requiresBackfill || column.unique := by
  have same : ∀ column, (change.addedColumn column).requiresBackfill = column.requiresBackfill ∧
      (change.addedColumn column).unique = column.unique := by
    intro column
    unfold addedColumn
    split <;> exact ⟨rfl, rfl⟩
  simp only [List.any_map, Function.comp_def, Action.destructive_addColumn_postgres, same,
    Bool.false_or]

theorem any_destructive_removedConstraintActions :
    change.removedConstraintActions.any (·.destructive family) = false := by
  rw [List.any_eq_false]
  intro action member
  rcases List.mem_map.mp member with ⟨named, _, rfl⟩
  exact Bool.false_ne_true

theorem any_destructive_addedConstraintActions :
    change.addedConstraintActions.any (·.destructive family) =
      !change.addedConstraints.isEmpty := by
  unfold addedConstraintActions
  rw [List.any_map, ← any_const_true]
  congr 1
  funext named
  dsimp only [Function.comp_apply]
  split <;> rfl

theorem any_destructive_optionActions (capabilities : Capabilities) :
    (if change.optionsChanged then
        change.refusals
          ++ (change.optionSettings capabilities).map (Action.setTable change.new.qualifiedName)
      else []).any (·.destructive family) = false := by
  split
  · simp [refusals]
  · rfl

theorem any_destructive_postgresActions (capabilities : Capabilities) (comments : Bool) :
    (change.postgresActions capabilities comments).any (·.destructive .postgres) =
      (!change.removed.isEmpty
        || change.added.any (fun column => column.requiresBackfill || column.unique)
        || change.altered.any (fun pair => pair.isDestructive || pair.convertsToInteger)
        || !change.addedConstraints.isEmpty
        || (change.primaryKeyChanged && !change.new.primaryKeyColumns.isEmpty)) := by
  have removed : (change.removed.map fun column =>
      Action.dropColumn change.new.qualifiedName column.name).any (·.destructive .postgres) =
        !change.removed.isEmpty := by
    rw [List.any_map, ← any_const_true]
    rfl
  have platform : ((change.platformSettings capabilities).map
      (Action.setTable change.new.qualifiedName)).any (·.destructive .postgres) = false := by
    simp
  unfold postgresActions
  simp only [List.any_append, any_destructive_addedColumns, removed, List.any_flatMap,
    any_destructive_columnActions, any_destructive_removedConstraintActions, any_actionIf,
    Action.destructive_replacePrimaryKey, any_destructive_addedConstraintActions,
    any_destructive_optionActions, platform, Action.destructive_commentTable, Bool.and_false,
    Bool.or_false]
  simp only [Bool.or_assoc, Bool.or_comm, Bool.or_left_comm]

end TableChange

/-! ## Written alterations on the Postgres family -/

namespace Target

variable {target : Target} {change : TableChange} {statements : List Statement}

theorem digits_of_convertToInteger {table : Table} {column : Column}
    (written : Succeeds (target.alterColumnText table column .convertToInteger)) :
    (DeclaredType.integerDigits? column.canonicalType).isSome = true := by
  rcases succeeds_bind.mp written with ⟨_, textOk, _⟩
  rcases bind_eq_ok_iff.mp textOk with ⟨_, typeOk, _⟩
  rcases bind_eq_ok_iff.mp typeOk with ⟨_, _, baseOk⟩
  exact succeeds_integerBase.mp ⟨_, baseOk⟩

/-- Values that are made numbers had another type, which does not widen to numbers. So the statement
that makes them numbers is never the only one that is flagged. -/
theorem isDestructive_of_convertsToInteger {table : Table} {pair : ColumnChange}
    (converts : pair.convertsToInteger = true)
    (written : Succeeds (target.alterColumnText table pair.new .convertToInteger)) :
    pair.isDestructive = true := by
  simp only [ColumnChange.convertsToInteger, Bool.and_eq_true, Bool.not_eq_true'] at converts
  have newDigits := digits_of_convertToInteger written
  have oldDigits : ¬(DeclaredType.integerDigits? pair.old.canonicalType).isSome = true := by
    intro digits
    rw [DeclaredType.isInteger_of_digits digits] at converts
    cases converts.2
  have different : ColumnChange.typeSignature pair.old ≠ ColumnChange.typeSignature pair.new := by
    intro same
    rw [ColumnChange.typeSignature, ColumnChange.typeSignature, Prod.mk.injEq] at same
    rw [same.1] at oldDigits
    exact oldDigits newDigits
  have narrow : ¬(pair.old.collation = pair.new.collation ∧ pair.old.isArray = pair.new.isArray ∧
      DeclaredType.isWidening pair.old.dataType pair.new.dataType = true) := by
    intro holds
    rcases holds with ⟨_, _, wider⟩
    exact oldDigits (DeclaredType.digits_of_isWidening wider newDigits)
  exact ColumnChange.isDestructive_iff.mpr (.type ⟨.inl different, narrow⟩)

theorem convertToInteger_mem_postgresActions {capabilities : Capabilities} {comments : Bool}
    {pair : ColumnChange} (member : pair ∈ change.altered) (replaced : pair.regenerates = false)
    (converts : pair.convertsToInteger = true) :
    .alterColumn change.new pair.new .convertToInteger ∈
      change.postgresActions capabilities comments := by
  simp only [ColumnChange.convertsToInteger, Bool.and_eq_true, Bool.not_eq_true'] at converts
  have numbered : Action.alterColumn change.new pair.new .convertToInteger ∈
      change.identityActions pair := by
    simp [TableChange.identityActions, converts, actionIf]
  have altered : Action.alterColumn change.new pair.new .convertToInteger ∈
      change.altered.flatMap (change.columnActions comments) := by
    refine List.mem_flatMap.mpr ⟨pair, member, ?_⟩
    simp only [TableChange.columnActions, replaced, Bool.false_eq_true, if_false, List.mem_append,
      numbered, true_or, or_true]
  simp only [TableChange.postgresActions, List.mem_append, altered, true_or, or_true]

/-- The actions that alter a table on the Postgres family are dangerous exactly when the change is,
as long as all of them can be written. -/
theorem any_destructive_actions_iff (postgres : target.family = .postgres)
    (written : ∀ action ∈ change.actions target.capabilities target.options.comments,
      Succeeds (target.statement action)) :
    (change.actions target.capabilities target.options.comments).any
        (·.destructive target.family) = true ↔ change.EndangersRows := by
  have family : target.capabilities.family = .postgres := postgres
  rw [TableChange.endangersRows_iff, postgres]
  cases empty : change.isEmpty with
  | true =>
      simp only [TableChange.isEmpty, Bool.and_eq_true, Bool.not_eq_true',
        List.isEmpty_iff] at empty
      simp [TableChange.actions, TableChange.isEmpty, empty]
  | false =>
      simp only [TableChange.actions, empty, family, Bool.false_eq_true, if_false] at written ⊢
      rw [TableChange.any_destructive_postgresActions]
      have columns :
          (change.altered.any fun pair => pair.isDestructive || pair.convertsToInteger) =
            change.altered.any ColumnChange.isDestructive := by
        rw [Bool.eq_iff_iff, List.any_eq_true, List.any_eq_true]
        refine exists_congr fun pair => and_congr_right fun member => ?_
        rw [Bool.or_eq_true]
        -- A conversion that can be written comes with a change of type that is flagged too.
        refine ⟨fun either => either.elim id fun converts => ?_, .inl⟩
        cases replaced : pair.regenerates with
        | true => simp [ColumnChange.isDestructive, replaced]
        | false =>
            rcases written _ (convertToInteger_mem_postgresActions member replaced converts) with
              ⟨_, statementOk⟩
            rcases statement_eq_ok_iff.mp statementOk with ⟨_, textOk, _⟩
            exact isDestructive_of_convertsToInteger converts (succeeds_whole.mp ⟨_, textOk⟩)
      rw [columns]

/-- On the Postgres family some statement that alters a table is flagged exactly when the change
endangers rows that exist. -/
theorem alterTable_flags_danger (postgres : target.family = .postgres)
    (written : target.alterTable change = .ok statements) :
    (∃ statement ∈ statements, statement.destructive = true) ↔ change.EndangersRows := by
  have each := succeeds_mapM.mp ⟨_, written⟩
  rw [← any_destructive_actions_iff postgres each, ← any_destructive_statements written,
    List.any_eq_true]

end Target

/-! ## An example -/

namespace AlterationExample

def textCode : Column := { name := "code", dataType := "text" }

def numericCode : Column := { name := "code", dataType := "bigint" }

/-- A text that becomes a number. -/
def change : TableChange where
  old := { name := "pages", columns := [textCode] }
  new := { name := "pages", columns := [numericCode] }

end AlterationExample

open AlterationExample in
theorem alterTable_flags_danger_pages :
    Target.family ⟨Capabilities.postgres, {}⟩ = .postgres ∧
      ∃ statements, Target.alterTable ⟨Capabilities.postgres, {}⟩ change = .ok statements ∧
        (∃ statement ∈ statements, statement.destructive = true) ∧ change.EndangersRows := by
  have postgres : Target.family ⟨Capabilities.postgres, {}⟩ = .postgres := rfl
  have succeeds : ∃ statements,
      Target.alterTable ⟨Capabilities.postgres, {}⟩ change = .ok statements := by
    decide +kernel
  rcases succeeds with ⟨statements, written⟩
  have keeps : change.KeepsColumn ⟨textCode, numericCode⟩ :=
    ⟨List.mem_cons_self, List.find?_cons_of_pos (by decide)⟩
  have retypes : ColumnChange.Retypes ⟨textCode, numericCode⟩ :=
    ColumnChange.retypes_iff.mpr (by decide +kernel)
  have endangers : change.EndangersRows := .changed _ keeps (.type retypes)
  exact ⟨postgres, statements, written,
    (Target.alterTable_flags_danger postgres written).mpr endangers, endangers⟩

end SchemaDdl
