import Mathlib.Data.Option.Basic
import SchemaDdl.Change.Table

/-!
# Changes that endanger rows

Why a change of a column or of a table can lose values or be refused for rows that exist, one reason
after another, and how the reasons agree with what the changes say of themselves.
-/

namespace SchemaDdl

/-! ## Columns -/

/-- Whether rows that exist stand in the way of a new column: it takes no repeated values, or it has
no value for them. -/
def Column.EndangersRows (column : Column) : Prop :=
  column.unique = true ∨
    (column.nullable = false ∧ column.default.isNone ∧ column.generated.isNone ∧
      column.autoIncrement = false)

theorem Column.endangersRows_iff {column : Column} :
    column.EndangersRows ↔ column.requiresBackfill = true ∨ column.unique = true := by
  simp [EndangersRows, requiresBackfill, isGenerated, or_comm, and_assoc]

namespace ColumnChange

variable {change : ColumnChange}

/-- Whether the type, the collation or being an array changes in a way that may lose values. -/
def Retypes (change : ColumnChange) : Prop :=
  (typeSignature change.old ≠ typeSignature change.new ∨
      change.old.collation ≠ change.new.collation) ∧
    ¬(change.old.collation = change.new.collation ∧ change.old.isArray = change.new.isArray ∧
      DeclaredType.isWidening change.old.dataType change.new.dataType = true)

/-- Why a change of a column endangers rows. -/
inductive EndangersRows (change : ColumnChange) : Prop
  | type (retypes : change.Retypes)
  | null (before : change.old.nullable = true) (after : change.new.nullable = false)
  | unique (before : change.old.unique = false) (after : change.new.unique = true)
  | reference (after : change.new.references.isSome)
      (different : change.old.references ≠ change.new.references)
  | check (after : change.new.check.isSome) (different : change.old.check ≠ change.new.check)
  | generation (after : change.new.generated.isSome)
      (different : change.old.generated ≠ change.new.generated)

theorem retypes_iff :
    change.Retypes ↔ change.typeChanged = true ∧ change.widening = false := by
  unfold Retypes widening typeChanged
  by_cases collation : change.old.collation = change.new.collation <;>
    by_cases signature : typeSignature change.old = typeSignature change.new <;>
    simp [collation, signature]

theorem isDestructive_iff : change.isDestructive = true ↔ change.EndangersRows := by
  have reasons : change.isDestructive = true ↔
      ((((change.Retypes ∨ (change.old.nullable = true ∧ change.new.nullable = false)) ∨
        (change.old.unique ≠ change.new.unique ∧ change.new.unique = true)) ∨
        (change.old.references ≠ change.new.references ∧ change.new.references.isSome)) ∨
        (change.old.check ≠ change.new.check ∧ change.new.check.isSome)) ∨
        (change.old.generated ≠ change.new.generated ∧ change.new.generated.isSome) := by
    simp [isDestructive, retypes_iff, tightensNullability, uniqueChanged, referencesChanged,
      checkChanged, regenerates, generatedChanged, Column.isGenerated]
  rw [reasons]
  constructor
  · intro holds
    rcases holds with ((((type | null) | unique) | reference) | check) | generation
    · exact .type type
    · exact .null null.1 null.2
    · exact .unique (by simpa [unique.2] using unique.1) unique.2
    · exact .reference reference.2 reference.1
    · exact .check check.2 check.1
    · exact .generation generation.2 generation.1
  · intro endangers
    cases endangers with
    | type retypes => simp [retypes]
    | null before after => simp [before, after]
    | unique before after => simp [before, after]
    | reference after different => simp [after, different]
    | check after different => simp [after, different]
    | generation after different => simp [after, different]

theorem isStructural_of_isDestructive (destructive : change.isDestructive = true) :
    change.isStructural = true := by
  have nullability : change.tightensNullability = true → change.nullabilityChanged = true := by
    unfold tightensNullability nullabilityChanged
    cases change.old.nullable <;> cases change.new.nullable <;> simp
  simp only [isDestructive, regenerates, Bool.or_eq_true, Bool.and_eq_true] at destructive
  simp only [isStructural, Bool.or_eq_true]
  rcases destructive with ((((type | null) | unique) | reference) | check) | generation
  · simp [type.1]
  · simp [nullability null]
  · simp [unique.1]
  · simp [reference.1]
  · simp [check.1]
  · simp [generation.1]

theorem isChange_of_isDestructive (destructive : change.isDestructive = true) :
    change.isChange = true := by
  simp [isChange, isStructural_of_isDestructive destructive]

theorem isDestructive_of_regenerates (regenerates : change.regenerates = true) :
    change.isDestructive = true := by
  simp [isDestructive, regenerates]

end ColumnChange

/-! ## Tables -/

namespace TableChange

variable {change : TableChange} {column : Column}

def LosesColumn (change : TableChange) (column : Column) : Prop :=
  column ∈ change.old.columns ∧ ∀ other ∈ change.new.columns, other.name ≠ column.name

def GainsColumn (change : TableChange) (column : Column) : Prop :=
  column ∈ change.new.columns ∧ ∀ other ∈ change.old.columns, other.name ≠ column.name

/-- Whether a column of the new version was there before, as another version of it. -/
def KeepsColumn (change : TableChange) (pair : ColumnChange) : Prop :=
  pair.new ∈ change.new.columns ∧ change.old.column? pair.new.name = some pair.old

/-- Whether a constraint other than the primary key is new, by its name or by its content. -/
def GainsConstraint (change : TableChange) (constraint : Constraint) : Prop :=
  constraint ∈ change.new.constraints ∧ constraint.isPrimaryKey = false ∧
    ∀ other ∈ change.old.constraints,
      ¬(other.effectiveName change.old.name = constraint.effectiveName change.new.name ∧
        other.kind = constraint.kind)

/-- Why a change of a table endangers rows. -/
inductive EndangersRows (change : TableChange) : Prop
  | lost (column : Column) (loses : change.LosesColumn column)
  | gained (column : Column) (gains : change.GainsColumn column) (endangers : column.EndangersRows)
  | changed (pair : ColumnChange) (keeps : change.KeepsColumn pair) (endangers : pair.EndangersRows)
  | constraint (constraint : Constraint) (gains : change.GainsConstraint constraint)
  | key (different : change.old.primaryKeyColumns ≠ change.new.primaryKeyColumns)
      (nonempty : change.new.primaryKeyColumns ≠ [])

theorem mem_removed : column ∈ change.removed ↔ change.LosesColumn column := by
  simp [removed, LosesColumn, Table.hasColumn, Table.column?]

theorem mem_added : column ∈ change.added ↔ change.GainsColumn column := by
  simp [added, GainsColumn, Table.hasColumn, Table.column?]

theorem mem_altered {pair : ColumnChange} :
    pair ∈ change.altered ↔ change.KeepsColumn pair ∧ pair.isChange = true := by
  simp only [altered, KeepsColumn, List.mem_filterMap, Option.bind_eq_some_iff,
    ColumnChange.between?]
  constructor
  · intro holds
    rcases holds with ⟨column, member, held, found, changed⟩
    split at changed
    · cases changed
      exact ⟨⟨member, found⟩, ‹_›⟩
    · cases changed
  · intro holds
    rcases holds with ⟨⟨member, found⟩, changed⟩
    exact ⟨pair.new, member, pair.old, found, if_pos changed⟩

theorem mem_altered_of_regenerates {pair : ColumnChange} (keeps : change.KeepsColumn pair)
    (regenerates : pair.regenerates = true) : pair ∈ change.altered :=
  mem_altered.mpr ⟨keeps, ColumnChange.isChange_of_isDestructive
    (ColumnChange.isDestructive_of_regenerates regenerates)⟩

theorem mem_namedConstraints {table : Table} {named : String × Constraint} :
    named ∈ table.namedConstraints ↔ named.2 ∈ table.constraints ∧
      named.2.isPrimaryKey = false ∧ named.1 = named.2.effectiveName table.name := by
  rcases named with ⟨name, constraint⟩
  simp only [Table.namedConstraints, List.mem_map, List.mem_filter, Bool.not_eq_true',
    Prod.mk.injEq]
  constructor
  · intro holds
    rcases holds with ⟨_, ⟨member, notKey⟩, rfl, rfl⟩
    exact ⟨member, notKey, rfl⟩
  · intro holds
    rcases holds with ⟨member, notKey, rfl⟩
    exact ⟨constraint, ⟨member, notKey⟩, rfl, rfl⟩

private theorem isPrimaryKey_of_kind {left right : Constraint} (same : left.kind = right.kind) :
    left.isPrimaryKey = right.isPrimaryKey := by
  unfold Constraint.isPrimaryKey
  rw [same]

theorem mem_addedConstraints {named : String × Constraint} :
    named ∈ change.addedConstraints ↔
      named.1 = named.2.effectiveName change.new.name ∧ change.GainsConstraint named.2 := by
  rcases named with ⟨name, constraint⟩
  simp only [addedConstraints, constraintsOnlyIn, List.mem_filter, mem_namedConstraints,
    GainsConstraint, Bool.not_eq_true', List.any_eq_false, Bool.and_eq_true, beq_iff_eq]
  constructor
  · intro holds
    rcases holds with ⟨⟨member, notKey, rfl⟩, new⟩
    refine ⟨rfl, member, notKey, fun other otherMember same => ?_⟩
    -- A constraint of the same content is no primary key either, so it is among the named ones.
    exact new (other.effectiveName change.old.name, other)
      ⟨otherMember, (isPrimaryKey_of_kind same.2).trans notKey, rfl⟩ same
  · intro holds
    rcases holds with ⟨rfl, member, notKey, new⟩
    refine ⟨⟨member, notKey, rfl⟩, ?_⟩
    intro other otherHolds same
    rcases otherHolds with ⟨otherMember, _, otherNamed⟩
    exact new other.2 otherMember ⟨otherNamed.symm.trans same.1, same.2⟩

theorem not_isEmpty_removed_iff :
    (!change.removed.isEmpty) = true ↔ ∃ column, change.LosesColumn column := by
  simp only [Bool.not_eq_true', List.isEmpty_eq_false_iff_exists_mem, mem_removed]

theorem any_altered_iff :
    change.altered.any ColumnChange.isDestructive = true ↔
      ∃ pair, change.KeepsColumn pair ∧ pair.EndangersRows := by
  simp only [List.any_eq_true, mem_altered, ← ColumnChange.isDestructive_iff]
  exact exists_congr fun pair => ⟨fun holds => ⟨holds.1.1, holds.2⟩, fun holds =>
    ⟨⟨holds.1, ColumnChange.isChange_of_isDestructive holds.2⟩, holds.2⟩⟩

theorem not_isEmpty_addedConstraints_iff :
    (!change.addedConstraints.isEmpty) = true ↔
      ∃ constraint, change.GainsConstraint constraint := by
  simp only [Bool.not_eq_true', List.isEmpty_eq_false_iff_exists_mem, mem_addedConstraints]
  exact ⟨fun ⟨named, holds⟩ => ⟨named.2, holds.2⟩, fun ⟨constraint, gains⟩ =>
    ⟨(constraint.effectiveName change.new.name, constraint), rfl, gains⟩⟩

theorem endangersRows_iff :
    change.EndangersRows ↔
      (!change.removed.isEmpty
        || change.added.any (fun column => column.requiresBackfill || column.unique)
        || change.altered.any ColumnChange.isDestructive
        || !change.addedConstraints.isEmpty
        || (change.primaryKeyChanged && !change.new.primaryKeyColumns.isEmpty)) = true := by
  have gained : (change.added.any fun column => column.requiresBackfill || column.unique) = true ↔
      ∃ column, change.GainsColumn column ∧ column.EndangersRows := by
    simp only [List.any_eq_true, Bool.or_eq_true, mem_added, Column.endangersRows_iff]
  have key : (change.primaryKeyChanged && !change.new.primaryKeyColumns.isEmpty) = true ↔
      change.old.primaryKeyColumns ≠ change.new.primaryKeyColumns ∧
        change.new.primaryKeyColumns ≠ [] := by
    simp [primaryKeyChanged]
  rw [Bool.or_eq_true, Bool.or_eq_true, Bool.or_eq_true, Bool.or_eq_true, not_isEmpty_removed_iff,
    gained, any_altered_iff, not_isEmpty_addedConstraints_iff, key]
  constructor
  · intro endangers
    cases endangers with
    | lost column loses => exact .inl (.inl (.inl (.inl ⟨column, loses⟩)))
    | gained column gains endangers => exact .inl (.inl (.inl (.inr ⟨column, gains, endangers⟩)))
    | changed pair keeps endangers => exact .inl (.inl (.inr ⟨pair, keeps, endangers⟩))
    | constraint constraint gains => exact .inl (.inr ⟨constraint, gains⟩)
    | key different nonempty => exact .inr ⟨different, nonempty⟩
  · intro holds
    rcases holds with (((⟨column, loses⟩ | ⟨column, gains, endangers⟩) | ⟨pair, keeps, endangers⟩)
      | ⟨constraint, gains⟩) | ⟨different, nonempty⟩
    · exact .lost column loses
    · exact .gained column gains endangers
    · exact .changed pair keeps endangers
    · exact .constraint constraint gains
    · exact .key different nonempty

/-! ## Tables that are built anew -/

/-- Why building a table anew is flagged. Here a primary key counts even when it is given up, but
repeated values of a new column do not. -/
inductive EndangersRebuilt (change : TableChange) : Prop
  | lost (column : Column) (loses : change.LosesColumn column)
  | gained (column : Column) (gains : change.GainsColumn column)
      (unfilled : column.requiresBackfill = true)
  | changed (pair : ColumnChange) (keeps : change.KeepsColumn pair) (endangers : pair.EndangersRows)
  | constraint (constraint : Constraint) (gains : change.GainsConstraint constraint)
  | key (different : change.old.primaryKeyColumns ≠ change.new.primaryKeyColumns)

def GainsUniqueColumn (change : TableChange) : Prop :=
  ∃ column, change.GainsColumn column ∧ column.unique = true

theorem isDestructive_iff : change.isDestructive = true ↔ change.EndangersRebuilt := by
  have gained : change.added.any Column.requiresBackfill = true ↔
      ∃ column, change.GainsColumn column ∧ column.requiresBackfill = true := by
    simp only [List.any_eq_true, mem_added]
  have key : change.primaryKeyChanged = true ↔
      change.old.primaryKeyColumns ≠ change.new.primaryKeyColumns := by
    simp [primaryKeyChanged]
  rw [isDestructive, Bool.or_eq_true, Bool.or_eq_true, Bool.or_eq_true, Bool.or_eq_true,
    not_isEmpty_removed_iff, gained, any_altered_iff, not_isEmpty_addedConstraints_iff, key]
  constructor
  · intro holds
    rcases holds with (((⟨column, loses⟩ | ⟨pair, keeps, endangers⟩) | ⟨constraint, gains⟩)
      | different) | ⟨column, gains, unfilled⟩
    · exact .lost column loses
    · exact .changed pair keeps endangers
    · exact .constraint constraint gains
    · exact .key different
    · exact .gained column gains unfilled
  · intro endangers
    cases endangers with
    | lost column loses => exact .inl (.inl (.inl (.inl ⟨column, loses⟩)))
    | gained column gains unfilled => exact .inr ⟨column, gains, unfilled⟩
    | changed pair keeps endangers => exact .inl (.inl (.inl (.inr ⟨pair, keeps, endangers⟩)))
    | constraint constraint gains => exact .inl (.inl (.inr ⟨constraint, gains⟩))
    | key different => exact .inl (.inr different)

theorem EndangersRows.rebuilt (endangers : change.EndangersRows) :
    change.EndangersRebuilt ∨ change.GainsUniqueColumn := by
  cases endangers with
  | lost column loses => exact .inl (.lost column loses)
  | gained column gains endangers =>
      rcases Column.endangersRows_iff.mp endangers with unfilled | unique
      · exact .inl (.gained column gains unfilled)
      · exact .inr ⟨column, gains, unique⟩
  | changed pair keeps endangers => exact .inl (.changed pair keeps endangers)
  | constraint constraint gains => exact .inl (.constraint constraint gains)
  | key different _ => exact .inl (.key different)

theorem endangersRows_of_gainsUniqueColumn (gains : change.GainsUniqueColumn) :
    change.EndangersRows :=
  let ⟨column, gains, unique⟩ := gains
  .gained column gains (.inl unique)

theorem isEmpty_of_isDestructive (destructive : change.isDestructive = true) :
    change.isEmpty = false := by
  cases empty : change.isEmpty with
  | false => rfl
  | true =>
      simp only [isEmpty, Bool.and_eq_true, Bool.not_eq_true', List.isEmpty_iff] at empty
      simp [isDestructive, empty] at destructive

end TableChange

end SchemaDdl
