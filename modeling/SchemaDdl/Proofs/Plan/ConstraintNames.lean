import Mathlib.Data.List.Flatten
import Mathlib.Data.List.Perm.Basic
import SchemaDdl.Capability.BuiltIn
import SchemaDdl.Proofs.Ledger
import SchemaDdl.Proofs.Plan.Constraints
import SchemaDdl.Proofs.Plan.Parts

/-!
# Names of constraints while a plan runs

The constraints of a table have names of their own, whether a column or the table declares them, but
only those of columns are compared with those of columns. Where a name moves between the two, the
plan adds a constraint under it before it drops the one that has it. Otherwise a plan of the
Postgres family turns the names of the old table into those of the new one.
-/

namespace SchemaDdl

/-! ## Names of constraints -/

namespace Table

def columnConstraintNames (table : Table) : List String :=
  table.columns.flatMap fun column => ColumnConstraint.all.filterMap fun constraint =>
    (constraint.kind? column).map fun _ => constraint.name table column

def tableConstraintNames (table : Table) : List String :=
  table.namedConstraints.map (·.1)

def constraintNames (table : Table) : List String :=
  table.columnConstraintNames ++ table.tableConstraintNames

theorem mem_columnConstraintNames {table : Table} {name : String} :
    name ∈ table.columnConstraintNames ↔
      ∃ column ∈ table.columns, ∃ constraint : ColumnConstraint,
        (constraint.kind? column).isSome = true ∧ constraint.name table column = name := by
  simp only [columnConstraintNames, List.mem_flatMap, List.mem_filterMap, Option.map_eq_some_iff,
    Option.isSome_iff_exists]
  refine exists_congr fun column => and_congr_right fun _ => ?_
  constructor
  · intro holds
    rcases holds with ⟨constraint, _, kind, carries, named⟩
    exact ⟨constraint, ⟨kind, carries⟩, named⟩
  · intro holds
    rcases holds with ⟨constraint, ⟨kind, carries⟩, named⟩
    exact ⟨constraint, constraint.mem_all, kind, carries, named⟩

end Table

theorem ColumnConstraint.name_inj {first second : Table} {left right : Column}
    {constraint other : ColumnConstraint} (tables : first.name = second.name)
    (same : constraint.name first left = other.name second right) :
    left.name = right.name ∧ constraint = other := by
  -- Read from the end, the endings differ before the names of columns begin.
  have backwards := congrArg (fun name => name.toList.reverse) same
  simp only [name, tables] at backwards
  cases constraint <;> cases other <;>
    simp [ending, toString, String.toList_inj] at backwards ⊢ <;> exact backwards

theorem Table.column?_eq_some {table : Table} (distinct : (table.columns.map (·.name)).Nodup)
    {column : Column} {name : String} (member : column ∈ table.columns)
    (named : column.name = name) :
    table.column? name = some column := by
  cases found : table.column? name with
  | none => exact absurd (beq_iff_eq.mpr named) (List.find?_eq_none.mp found column member)
  | some other =>
      have same := List.find?_some found
      rw [List.inj_on_of_nodup_map distinct (List.mem_of_find?_eq_some found) member
        ((beq_iff_eq.mp same).trans named.symm)]

namespace TableChange

variable {change : TableChange} {name : String}

/-- Whether both versions of a table have the same columns, each of them once, and all keep their
places. -/
structure SameColumns (change : TableChange) : Prop where
  distinct : (change.old.columns.map (·.name)).Nodup
  same : (change.old.columns.map (·.name)).Perm (change.new.columns.map (·.name))
  inPlace : ∀ column, change.KeepsColumn column → column.regenerates = false

/-- Whether no name moves between the columns of a table and the table itself. -/
structure ConstraintNamesStay (change : TableChange) : Prop where
  columns : ∀ name ∈ change.old.columnConstraintNames, name ∉ change.new.tableConstraintNames
  table : ∀ name ∈ change.old.tableConstraintNames, name ∉ change.new.columnConstraintNames

namespace SameColumns

variable (columns : change.SameColumns)

include columns

theorem newDistinct : (change.new.columns.map (·.name)).Nodup :=
  columns.same.nodup_iff.mp columns.distinct

theorem exists_old {column : Column} (member : column ∈ change.new.columns) :
    ∃ old, change.KeepsColumn ⟨old, column⟩ := by
  rcases List.mem_map.mp (columns.same.mem_iff.mpr (List.mem_map_of_mem member)) with
    ⟨old, oldMember, named⟩
  exact ⟨old, member, Table.column?_eq_some columns.distinct oldMember named⟩

theorem exists_new {column : Column} (member : column ∈ change.old.columns) :
    ∃ new, change.KeepsColumn ⟨column, new⟩ := by
  rcases List.mem_map.mp (columns.same.mem_iff.mp (List.mem_map_of_mem member)) with
    ⟨new, newMember, named⟩
  exact ⟨new, newMember, Table.column?_eq_some columns.distinct member named.symm⟩

end SameColumns

/-! ## Names of the constraints that change -/

section

variable (tables : change.old.name = change.new.name) (columns : change.SameColumns)

include tables columns

theorem mem_old_columnConstraintNames_iff {column : ColumnChange} {constraint : ColumnConstraint}
    (keeps : change.KeepsColumn column) :
    constraint.name change.new column.new ∈ change.old.columnConstraintNames ↔
      (constraint.kind? column.old).isSome = true := by
  rw [Table.mem_columnConstraintNames]
  constructor
  · intro holds
    rcases holds with ⟨old, member, other, carries, named⟩
    rcases ColumnConstraint.name_inj tables named with ⟨same, rfl⟩
    have equal : old = column.old :=
      List.inj_on_of_nodup_map columns.distinct member keeps.old_mem
        (same.trans keeps.old_name.symm)
    rwa [equal] at carries
  · intro carries
    exact ⟨column.old, keeps.old_mem, constraint, carries, keeps.name_eq tables⟩

theorem mem_new_columnConstraintNames_iff {column : ColumnChange} {constraint : ColumnConstraint}
    (keeps : change.KeepsColumn column) :
    constraint.name change.old column.old ∈ change.new.columnConstraintNames ↔
      (constraint.kind? column.new).isSome = true := by
  rw [Table.mem_columnConstraintNames]
  constructor
  · intro holds
    rcases holds with ⟨new, member, other, carries, named⟩
    rcases ColumnConstraint.name_inj tables.symm named with ⟨same, rfl⟩
    have equal : new = column.new :=
      List.inj_on_of_nodup_map columns.newDistinct member keeps.1 (same.trans keeps.old_name)
    rwa [equal] at carries
  · intro carries
    exact ⟨column.new, keeps.1, constraint, carries, (keeps.name_eq tables).symm⟩

end

theorem mem_tableConstraintNames {table : Table} :
    name ∈ table.tableConstraintNames ↔
      ∃ constraint, (name, constraint) ∈ table.namedConstraints := by
  simp [Table.tableConstraintNames]

theorem exists_mem_constraintsOnlyIn {first second : Table}
    (only : ∃ constraint, (name, constraint) ∈ constraintsOnlyIn first second) :
    name ∈ first.tableConstraintNames := by
  rcases only with ⟨constraint, member⟩
  exact mem_tableConstraintNames.mpr ⟨constraint, (List.mem_filter.mp member).1⟩

/-- A constraint is only in the first of two tables, and none of its name only in the second,
exactly when the second has none of its name. -/
theorem only_and_not_only_iff {first second : Table} (apart : first.tableConstraintNames.Nodup) :
    (∃ constraint, (name, constraint) ∈ constraintsOnlyIn first second) ∧
        (¬∃ constraint, (name, constraint) ∈ constraintsOnlyIn second first) ↔
      name ∈ first.tableConstraintNames ∧ name ∉ second.tableConstraintNames := by
  constructor
  · intro holds
    rcases holds with ⟨⟨constraint, only⟩, notOnly⟩
    rcases List.mem_filter.mp only with ⟨member, new⟩
    refine ⟨mem_tableConstraintNames.mpr ⟨constraint, member⟩, fun held => ?_⟩
    rcases mem_tableConstraintNames.mp held with ⟨other, otherMember⟩
    simp only [Bool.not_eq_true', List.any_eq_false, Bool.and_eq_true, beq_iff_eq] at new
    refine notOnly ⟨other, List.mem_filter.mpr ⟨otherMember, ?_⟩⟩
    simp only [Bool.not_eq_true', List.any_eq_false, Bool.and_eq_true, beq_iff_eq]
    -- The only constraint of the name in the first table is not that of the second.
    intro found foundMember same
    have equal := List.inj_on_of_nodup_map apart foundMember member same.1
    rw [equal] at same
    exact new _ otherMember ⟨rfl, same.2.symm⟩
  · intro holds
    rcases holds with ⟨held, missing⟩
    rcases mem_tableConstraintNames.mp held with ⟨constraint, member⟩
    refine ⟨⟨constraint, List.mem_filter.mpr ⟨member, ?_⟩⟩, fun only =>
      missing (exists_mem_constraintsOnlyIn only)⟩
    simp only [Bool.not_eq_true', List.any_eq_false, Bool.and_eq_true, beq_iff_eq]
    intro other otherMember same
    exact missing (mem_tableConstraintNames.mpr ⟨other.2, same.1 ▸ otherMember⟩)

theorem replaces_iff :
    change.replaces name = true ↔
      (∃ constraint, (name, constraint) ∈ change.addedConstraints) ∧
        ∃ constraint, (name, constraint) ∈ change.removedConstraints := by
  simp [replaces]

section

variable (tables : change.old.name = change.new.name) (columns : change.SameColumns)
  (oldApart : change.old.constraintNames.Nodup) (newApart : change.new.constraintNames.Nodup)

include tables columns newApart

theorem addsConstraint_iff :
    change.AddsConstraint name ↔
      name ∈ change.new.columnConstraintNames ∧ name ∉ change.old.columnConstraintNames ∨
        name ∈ change.new.tableConstraintNames ∧ name ∉ change.old.tableConstraintNames := by
  rw [← only_and_not_only_iff (List.nodup_append.mp newApart).2.1]
  constructor
  · intro adds
    cases adds with
    | @ofColumn column constraint keeps inPlace free carries named =>
        subst named
        refine .inl ⟨Table.mem_columnConstraintNames.mpr ⟨_, keeps.1, constraint, carries, rfl⟩, ?_⟩
        rw [mem_old_columnConstraintNames_iff tables columns keeps, free]
        nofun
    | @ofTable constraint gains free =>
        refine .inr ⟨⟨constraint, gains⟩, fun loses => ?_⟩
        exact Bool.eq_false_iff.mp free (replaces_iff.mpr ⟨⟨constraint, gains⟩, loses⟩)
  · intro holds
    rcases holds with ⟨member, missing⟩ | ⟨⟨constraint, gains⟩, notLoses⟩
    · rcases Table.mem_columnConstraintNames.mp member with
        ⟨column, columnMember, constraint, carries, rfl⟩
      rcases columns.exists_old columnMember with ⟨old, keeps⟩
      rw [mem_old_columnConstraintNames_iff tables columns keeps, Bool.not_eq_true,
        Option.isSome_eq_false_iff, Option.isNone_iff_eq_none] at missing
      exact .ofColumn keeps (columns.inPlace _ keeps) missing carries rfl
    · exact .ofTable gains (Bool.eq_false_iff.mpr fun replaces =>
        notLoses (replaces_iff.mp replaces).2)

omit newApart

include oldApart

theorem dropsConstraint_iff :
    change.DropsConstraint name ↔
      name ∈ change.old.columnConstraintNames ∧ name ∉ change.new.columnConstraintNames ∨
        name ∈ change.old.tableConstraintNames ∧ name ∉ change.new.tableConstraintNames := by
  rw [← only_and_not_only_iff (List.nodup_append.mp oldApart).2.1]
  constructor
  · intro drops
    cases drops with
    | @ofColumn column constraint keeps inPlace carried lost named =>
        subst named
        refine .inl ⟨Table.mem_columnConstraintNames.mpr
          ⟨_, keeps.old_mem, constraint, carried, rfl⟩, ?_⟩
        rw [mem_new_columnConstraintNames_iff tables columns keeps, lost]
        nofun
    | @ofTable constraint loses free =>
        refine .inr ⟨⟨constraint, loses⟩, fun gains => ?_⟩
        exact Bool.eq_false_iff.mp free (replaces_iff.mpr ⟨gains, ⟨constraint, loses⟩⟩)
  · intro holds
    rcases holds with ⟨member, missing⟩ | ⟨⟨constraint, loses⟩, notGains⟩
    · rcases Table.mem_columnConstraintNames.mp member with
        ⟨column, columnMember, constraint, carried, rfl⟩
      rcases columns.exists_new columnMember with ⟨new, keeps⟩
      have named := @mem_new_columnConstraintNames_iff change tables columns ⟨column, new⟩
        constraint keeps
      rw [named, Bool.not_eq_true, Option.isSome_eq_false_iff, Option.isNone_iff_eq_none] at missing
      exact .ofColumn keeps (columns.inPlace _ keeps) carried missing rfl
    · exact .ofTable loses (Bool.eq_false_iff.mpr fun replaces =>
        notGains (replaces_iff.mp replaces).1)

end

theorem mem_constraintNames_of_replaces (tables : change.old.name = change.new.name)
    (replaces : change.ReplacesConstraint name) : name ∈ change.new.constraintNames := by
  cases replaces with
  | @ofColumn column constraint keeps inPlace changed carried carries named =>
      refine List.mem_append_left _ (Table.mem_columnConstraintNames.mpr ?_)
      exact ⟨column.new, keeps.1, constraint, carries, (keeps.name_eq tables).symm.trans named⟩
  | ofTable replaces =>
      exact List.mem_append_right _ (exists_mem_constraintsOnlyIn (replaces_iff.mp replaces).1)

section

variable (tables : change.old.name = change.new.name) (columns : change.SameColumns)
  (oldApart : change.old.constraintNames.Nodup) (newApart : change.new.constraintNames.Nodup)

include tables columns oldApart newApart

theorem forall_addsConstraint_iff :
    (∀ name, change.AddsConstraint name → name ∉ change.old.constraintNames) ↔
      change.ConstraintNamesStay := by
  have adds := fun name => @addsConstraint_iff change name tables columns newApart
  have oldDisjoint := (List.nodup_append.mp oldApart).2.2
  constructor
  · intro free
    constructor
    · intro name held moved
      have new : name ∉ change.old.tableConstraintNames := fun other =>
        oldDisjoint name held name other rfl
      exact free name ((adds name).mpr (.inr ⟨moved, new⟩)) (List.mem_append_left _ held)
    · intro name held moved
      have new : name ∉ change.old.columnConstraintNames := fun other =>
        oldDisjoint name other name held rfl
      exact free name ((adds name).mpr (.inl ⟨moved, new⟩)) (List.mem_append_right _ held)
  · intro stay name added held
    rcases (adds name).mp added with ⟨gained, new⟩ | ⟨gained, new⟩
    · rcases List.mem_append.mp held with held | held
      · exact new held
      · exact stay.table name held gained
    · rcases List.mem_append.mp held with held | held
      · exact stay.columns name held gained
      · exact new held

theorem ConstraintNamesStay.mem_constraintNames_iff (stay : change.ConstraintNamesStay) :
    (name ∈ change.old.constraintNames ∨ change.AddsConstraint name ∨
        change.ReplacesConstraint name) ∧ ¬change.DropsConstraint name ↔
      name ∈ change.new.constraintNames := by
  rw [addsConstraint_iff tables columns newApart, dropsConstraint_iff tables columns oldApart]
  constructor
  · intro holds
    rcases holds with ⟨held | ((⟨gained, _⟩ | ⟨gained, _⟩) | replaced), stays⟩
    · by_contra missing
      rcases List.mem_append.mp held with held | held
      · exact stays (.inl ⟨held, fun member => missing (List.mem_append_left _ member)⟩)
      · exact stays (.inr ⟨held, fun member => missing (List.mem_append_right _ member)⟩)
    · exact List.mem_append_left _ gained
    · exact List.mem_append_right _ gained
    · exact mem_constraintNames_of_replaces tables replaced
  · intro member
    rcases List.mem_append.mp member with member | member
    · refine ⟨?_, fun dropped => ?_⟩
      · by_cases held : name ∈ change.old.columnConstraintNames
        · exact .inl (List.mem_append_left _ held)
        · exact .inr (.inl (.inl ⟨member, held⟩))
      · rcases dropped with ⟨_, missing⟩ | ⟨held, _⟩
        · exact missing member
        · exact stay.table name held member
    · refine ⟨?_, fun dropped => ?_⟩
      · by_cases held : name ∈ change.old.tableConstraintNames
        · exact .inl (List.mem_append_right _ held)
        · exact .inr (.inl (.inr ⟨member, held⟩))
      · rcases dropped with ⟨held, _⟩ | ⟨_, missing⟩
        · exact stay.columns name held member
        · exact missing member

end

end TableChange

/-! ## What actions do to names -/

/-- What an action does to the names of the constraints of a table, apart from its primary key. -/
def Action.constraintEntry (defaultSchema : String) (table : QualifiedName) : Action → Entry String
  | .addConstraint holder constraint _ =>
      if holder.qualifiedName.agrees defaultSchema table then
        { added := [constraint.effectiveName holder.name] }
      else {}
  | .dropConstraint holder name _ =>
      if holder.agrees defaultSchema table then { dropped := [name] } else {}
  | .replaceConstraint holder name constraint _ =>
      if holder.qualifiedName.agrees defaultSchema table then
        { dropped := [name], added := [constraint.effectiveName holder.name] }
      else {}
  | _ => {}

namespace TableChange

variable {change : TableChange} {defaultSchema : String} {name : String} {action : Action}

/-- Whether actions turn the names of the constraints of the old table into those of the new one,
and never add one that is there. -/
def ConstraintNamesConverge (change : TableChange) (defaultSchema : String)
    (actions : List Action) : Prop :=
  ∃ final, Entry.postAll? change.old.constraintNames
      (actions.map (·.constraintEntry defaultSchema change.new.qualifiedName)) = some final ∧
    ∀ name, name ∈ final ↔ name ∈ change.new.constraintNames

def constraintEntries (change : TableChange) (defaultSchema : String) (phase : Phase) :
    List (Entry String) :=
  (change.constraintActions.filter (·.operation.phase == phase)).map
    (·.constraintEntry defaultSchema change.new.qualifiedName)

theorem mem_constraintEntries {phase : Phase} {entry : Entry String} :
    entry ∈ change.constraintEntries defaultSchema phase ↔
      ∃ action ∈ change.constraintActions, action.operation.phase = phase ∧
        action.constraintEntry defaultSchema change.new.qualifiedName = entry := by
  simp [constraintEntries, and_assoc]

section

variable {entry : Entry String}

theorem mem_additionEntries :
    entry ∈ change.constraintEntries defaultSchema .addition ↔
      ∃ name, change.AddsConstraint name ∧ { added := [name] } = entry := by
  have self := @QualifiedName.agrees_self defaultSchema change.new.qualifiedName
  rw [mem_constraintEntries]
  constructor
  · intro holds
    rcases holds with ⟨action, member, phase, rfl⟩
    rcases of_mem_constraintActions member with
      ⟨constraint, subject, rfl⟩ | ⟨_, _, rfl⟩ | ⟨_, _, _, rfl, _⟩
    · exact ⟨_, exists_addConstraint_iff.mp ⟨constraint, subject, rfl, member⟩, (if_pos self).symm⟩
    · cases phase
    · cases phase
  · intro holds
    rcases holds with ⟨name, adds, rfl⟩
    rcases exists_addConstraint_iff.mpr adds with ⟨constraint, subject, named, member⟩
    refine ⟨_, member, rfl, ?_⟩
    rw [Action.constraintEntry, if_pos self, named]

theorem mem_modificationEntries (tables : change.old.name = change.new.name) :
    entry ∈ change.constraintEntries defaultSchema .modification ↔
      ∃ name, change.ReplacesConstraint name ∧ { dropped := [name], added := [name] } = entry := by
  have self := @QualifiedName.agrees_self defaultSchema change.new.qualifiedName
  rw [mem_constraintEntries]
  constructor
  · intro holds
    rcases holds with ⟨action, member, phase, rfl⟩
    rcases of_mem_constraintActions member with
      ⟨_, _, rfl⟩ | ⟨_, _, rfl⟩ | ⟨name, constraint, subject, rfl, named⟩
    · cases phase
    · cases phase
    · refine ⟨name, exists_replaceConstraint_iff.mp ⟨constraint, subject, member⟩, ?_⟩
      rw [Action.constraintEntry, if_pos self, named tables]
  · intro holds
    rcases holds with ⟨name, replaces, rfl⟩
    rcases exists_replaceConstraint_iff.mpr replaces with ⟨constraint, subject, member⟩
    refine ⟨_, member, rfl, ?_⟩
    rcases of_mem_constraintActions member with
      ⟨_, _, equal⟩ | ⟨_, _, equal⟩ | ⟨_, _, _, equal, named⟩
    · cases equal
    · cases equal
    · cases equal
      rw [Action.constraintEntry, if_pos self, named tables]

theorem mem_removalEntries :
    entry ∈ change.constraintEntries defaultSchema .removal ↔
      ∃ name, change.DropsConstraint name ∧ { dropped := [name] } = entry := by
  have self := @QualifiedName.agrees_self defaultSchema change.new.qualifiedName
  rw [mem_constraintEntries]
  constructor
  · intro holds
    rcases holds with ⟨action, member, phase, rfl⟩
    rcases of_mem_constraintActions member with
      ⟨_, _, rfl⟩ | ⟨name, subject, rfl⟩ | ⟨_, _, _, rfl, _⟩
    · cases phase
    · exact ⟨name, exists_dropConstraint_iff.mp ⟨subject, member⟩, (if_pos self).symm⟩
    · cases phase
  · intro holds
    rcases holds with ⟨name, drops, rfl⟩
    rcases exists_dropConstraint_iff.mpr drops with ⟨subject, member⟩
    exact ⟨_, member, rfl, if_pos self⟩

end

/-! ## Names that are added once -/

theorem map_new_altered_sublist : (change.altered.map (·.new)).Sublist change.new.columns := by
  unfold altered
  induction change.new.columns with
  | nil => exact .refl _
  | cons column columns induction =>
      rw [List.filterMap_cons]
      cases found : (change.old.column? column.name).bind (ColumnChange.between? · column) with
      | none => exact .cons _ induction
      | some pair =>
          rcases Option.bind_eq_some_iff.mp found with ⟨old, _, between⟩
          simp only [ColumnChange.between?, Option.ite_none_right_eq_some, Option.some.injEq]
            at between
          rcases between with ⟨_, rfl⟩
          exact .cons_cons _ induction

def addedNames (change : TableChange) (defaultSchema : String) (actions : List Action) :
    List String :=
  actions.flatMap fun action =>
    (action.constraintEntry defaultSchema change.new.qualifiedName).added

theorem addedNames_columnActions_sublist {column : ColumnChange} {constraint : ColumnConstraint} :
    (change.addedNames defaultSchema (constraint.actions change.old change.new column)).Sublist
      ((constraint.kind? column.new).map fun _ =>
        constraint.name change.new column.new).toList := by
  have self := @QualifiedName.agrees_self defaultSchema change.new.qualifiedName
  unfold ColumnConstraint.actions
  cases constraint.changed column with
  | false => exact List.nil_sublist _
  | true =>
      cases constraint.kind? column.old <;> cases constraint.kind? column.new <;>
        simp [addedNames, Action.constraintEntry, self, Constraint.effectiveName]

theorem addedNames_constraintActions_sublist :
    (change.addedNames defaultSchema change.constraintActions).Sublist
      change.new.constraintNames := by
  have self := @QualifiedName.agrees_self defaultSchema change.new.qualifiedName
  have columns : (change.addedNames defaultSchema (change.altered.flatMap fun column =>
      if column.regenerates then [] else ColumnConstraint.all.flatMap
        (ColumnConstraint.actions change.old change.new column))).Sublist
          change.new.columnConstraintNames := by
    refine .trans ?_ (map_new_altered_sublist.flatMap _)
    rw [addedNames, List.flatMap_assoc, List.flatMap_map]
    refine .flatMap_right _ fun column _ => ?_
    split
    · exact List.nil_sublist _
    · rw [List.flatMap_assoc, List.filterMap_eq_flatMap_toList]
      exact .flatMap_right _ fun constraint _ => addedNames_columnActions_sublist
  have removed : change.addedNames defaultSchema change.removedConstraintActions = [] := by
    refine List.flatMap_eq_nil_iff.mpr (List.forall_mem_map.mpr fun named _ => ?_)
    exact congrArg Entry.added (if_pos self)
  have added : change.addedNames defaultSchema change.addedConstraintActions =
      change.addedConstraints.map (·.1) := by
    rw [addedNames, addedConstraintActions, List.flatMap_map, List.map_eq_flatMap]
    refine List.flatMap_congr fun named _ => ?_
    dsimp only
    split
    · exact congrArg Entry.added (if_pos self)
    · exact congrArg Entry.added (if_pos self)
  have whole : change.addedNames defaultSchema change.constraintActions =
      change.addedNames defaultSchema (change.altered.flatMap fun column =>
        if column.regenerates then [] else ColumnConstraint.all.flatMap
          (ColumnConstraint.actions change.old change.new column))
        ++ change.addedConstraints.map (·.1) := by
    rw [← added, ← List.append_nil (change.addedNames _ (change.altered.flatMap _)), ← removed]
    simp only [addedNames, constraintActions, List.flatMap_append]
  rw [whole]
  exact columns.append (List.filter_sublist.map _)

theorem orderedActions_constraintActions :
    orderedActions (change.constraintActions.map .routed) =
      change.constraintActions.filter (·.operation.phase == .addition)
        ++ change.constraintActions.filter (·.operation.phase == .modification)
        ++ change.constraintActions.filter (·.operation.phase == .removal) := by
  have elsewhere : ∀ phase, phase = .creation ∨ phase = .tableRemoval →
      change.constraintActions.filter (·.operation.phase == phase) = [] := by
    intro phase outside
    refine List.filter_eq_nil_iff.mpr fun action member => ?_
    rcases of_mem_constraintActions member with ⟨_, _, rfl⟩ | ⟨_, _, rfl⟩ | ⟨_, _, _, rfl, _⟩ <;>
      rcases outside with rfl | rfl <;> exact Bool.false_ne_true
  rw [orderedActions_eq]
  simp only [actionsIn_map_routed, elsewhere .creation (.inl rfl),
    elsewhere .tableRemoval (.inr rfl), List.nil_append, List.append_nil]

/-! ## Names in the end -/

def orderedEntries (change : TableChange) (defaultSchema : String) : List (Entry String) :=
  change.constraintEntries defaultSchema .addition
    ++ change.constraintEntries defaultSchema .modification
    ++ change.constraintEntries defaultSchema .removal

theorem map_orderedActions_constraintActions :
    (orderedActions (change.constraintActions.map .routed)).map
        (·.constraintEntry defaultSchema change.new.qualifiedName) =
      change.orderedEntries defaultSchema := by
  rw [orderedActions_constraintActions, List.map_append, List.map_append]
  rfl

theorem nodup_addedNames_orderedEntries (apart : change.new.constraintNames.Nodup) :
    ((change.orderedEntries defaultSchema).flatMap (·.added)).Nodup := by
  have found := orderedActions_perm (change.constraintActions.map .routed)
  rw [List.map_map, show (PlanStep.action ∘ PlanStep.routed) = id from rfl, List.map_id] at found
  rw [← map_orderedActions_constraintActions, List.flatMap_map, (found.flatMap_right _).nodup_iff]
  exact apart.sublist addedNames_constraintActions_sublist

theorem isSome_postAll?_orderedEntries (tables : change.old.name = change.new.name)
    (apart : change.new.constraintNames.Nodup) :
    (Entry.postAll? change.old.constraintNames (change.orderedEntries defaultSchema)).isSome =
        true ↔
      ∀ name, change.AddsConstraint name → name ∉ change.old.constraintNames := by
  have replaced : ∀ entry ∈ change.constraintEntries defaultSchema .modification,
      ∀ name ∈ entry.added, name ∈ entry.dropped := by
    intro entry member name added
    rcases (mem_modificationEntries tables).mp member with ⟨_, _, rfl⟩
    exact added
  have dropped : ∀ entry ∈ change.constraintEntries defaultSchema .removal,
      ∀ name ∈ entry.added, name ∈ entry.dropped := by
    intro entry member name added
    rcases mem_removalEntries.mp member with ⟨_, _, rfl⟩
    cases added
  rw [Entry.isSome_postAll?_iff (nodup_addedNames_orderedEntries apart), orderedEntries,
    eachAfter_append, eachAfter_append, and_iff_left (Entry.eachAfter_follows_of_own dropped),
    and_iff_left (Entry.eachAfter_follows_of_own replaced)]
  refine Iff.trans (b := ∀ entry ∈ change.constraintEntries defaultSchema .addition,
    ∀ name ∈ entry.added, name ∉ change.old.constraintNames) ?_ ?_
  · refine eachAfter_iff_forall fun before members entry member => forall₂_congr fun name _ => ?_
    have dropped : before.flatMap (·.dropped) = [] := by
      refine List.flatMap_eq_nil_iff.mpr fun entry member => ?_
      rcases mem_additionEntries.mp (members entry member) with ⟨_, _, rfl⟩
      rfl
    rcases mem_additionEntries.mp member with ⟨_, _, rfl⟩
    rw [dropped]
    simp
  · constructor
    · intro each name adds
      exact each _ (mem_additionEntries.mpr ⟨name, adds, rfl⟩) name List.mem_cons_self
    · intro each entry member
      rcases mem_additionEntries.mp member with ⟨name, adds, rfl⟩
      exact List.forall_mem_singleton.mpr (each name adds)

theorem mem_postAll?_orderedEntries (tables : change.old.name = change.new.name)
    {final : List String}
    (posted : Entry.postAll? change.old.constraintNames (change.orderedEntries defaultSchema) =
      some final) :
    name ∈ final ↔
      (name ∈ change.old.constraintNames ∨ change.AddsConstraint name ∨
        change.ReplacesConstraint name) ∧ ¬change.DropsConstraint name := by
  rw [orderedEntries, Entry.postAll?_append] at posted
  rcases Option.bind_eq_some_iff.mp posted with ⟨middle, first, second⟩
  have removes : ∀ entry ∈ change.constraintEntries defaultSchema .removal, entry.added = [] := by
    intro entry member
    rcases mem_removalEntries.mp member with ⟨_, _, rfl⟩
    rfl
  have readds : ∀ entry ∈ change.constraintEntries defaultSchema .addition
      ++ change.constraintEntries defaultSchema .modification,
        ∀ name ∈ entry.dropped, name ∈ entry.added := by
    refine List.forall_mem_append.mpr ⟨fun entry member => ?_, fun entry member => ?_⟩
    · rcases mem_additionEntries.mp member with ⟨_, _, rfl⟩
      exact List.forall_mem_nil _
    · rcases (mem_modificationEntries tables).mp member with ⟨_, _, rfl⟩
      exact fun _ member => member
  rw [Entry.mem_postAll?_of_removes removes second, Entry.mem_postAll?_of_readds readds first,
    List.flatMap_append, List.mem_append]
  simp [List.mem_flatMap, mem_additionEntries, mem_modificationEntries tables, mem_removalEntries]

theorem constraintNamesConverge_iff (tables : change.old.name = change.new.name)
    (columns : change.SameColumns) (oldApart : change.old.constraintNames.Nodup)
    (newApart : change.new.constraintNames.Nodup) :
    change.ConstraintNamesConverge defaultSchema
        (orderedActions (change.constraintActions.map .routed)) ↔
      change.ConstraintNamesStay := by
  have free := (@isSome_postAll?_orderedEntries change defaultSchema tables newApart).trans
    (forall_addsConstraint_iff tables columns oldApart newApart)
  rw [ConstraintNamesConverge, map_orderedActions_constraintActions]
  constructor
  · intro converge
    rcases converge with ⟨final, posted, _⟩
    exact free.mp (posted ▸ rfl)
  · intro stay
    rcases Option.isSome_iff_exists.mp (free.mpr stay) with ⟨final, posted⟩
    exact ⟨final, posted, fun name => (mem_postAll?_orderedEntries tables posted).trans
      (stay.mem_constraintNames_iff tables columns oldApart newApart)⟩

end TableChange

/-! ## Names in a whole plan -/

namespace SchemaChange

variable {change : SchemaChange} {capabilities : Capabilities} {comments : Bool}
  {pair : TableChange}

theorem changesConstraint_eq_false {action : Action}
    (other : action.operation ∉ [.addConstraint, .dropConstraint, .replaceConstraint]) :
    action.changesConstraint = false := by
  cases action <;> first | rfl | exact absurd (by simp [Action.operation]) other

theorem filter_changesConstraint_steps (postgres : capabilities.family = .postgres) :
    (change.steps capabilities comments).filter (·.action.changesConstraint) =
      change.keptTables.flatMap fun pair => pair.constraintActions.map .routed := by
  have leading : change.leadingSteps.filter (·.action.changesConstraint) = [] := by
    refine List.filter_eq_nil_iff.mpr fun step member => ?_
    have leads := (of_mem_leadingSteps member).2
    rw [changesConstraint_eq_false]
    · exact Bool.false_ne_true
    · revert leads
      cases step.action.operation <;> decide
  have trailing : change.trailingSteps.filter (·.action.changesConstraint) = [] := by
    refine List.filter_eq_nil_iff.mpr fun step member => ?_
    have trails := (operation_of_mem_trailingSteps member).1
    rw [changesConstraint_eq_false]
    · exact Bool.false_ne_true
    · revert trails
      cases step.action.operation <;> decide
  have dropped : change.dropSteps.filter (·.action.changesConstraint) = [] :=
    List.filter_eq_nil_iff.mpr (List.forall_mem_map.mpr fun _ _ => nofun)
  have created : (change.creationSteps capabilities comments).filter
      (·.action.changesConstraint) = [] := by
    refine List.filter_eq_nil_iff.mpr (List.forall_mem_flatMap.mpr fun table _ => ?_)
    refine List.forall_mem_map.mpr fun action member => ?_
    rcases List.mem_append.mp member with member | member
    · rcases List.mem_cons.mp member with rfl | member
      · exact Bool.false_ne_true
      · rcases List.mem_map.mp member with ⟨_, _, rfl⟩
        exact Bool.false_ne_true
    · rcases Table.of_mem_completion member with ⟨_, rfl⟩ | ⟨_, rfl⟩ | ⟨_, _, rfl⟩ <;>
        exact Bool.false_ne_true
  rw [steps_eq]
  simp only [List.filter_append, leading, created, dropped, trailing, List.filter_flatMap,
    TableChange.filter_changesConstraint_steps postgres, List.nil_append, List.append_nil]

def concerns (defaultSchema : String) (table : QualifiedName) (action : Action) : Bool :=
  action.constraintEntry defaultSchema table != {}

theorem changesConstraint_of_concerns {defaultSchema : String} {table : QualifiedName}
    {action : Action} (concerned : concerns defaultSchema table action = true) :
    action.changesConstraint = true := by
  cases action <;> first | rfl | simp [concerns, Action.constraintEntry] at concerned

theorem filter_concerns_constraintActions {other : TableChange} :
    (other.constraintActions.map PlanStep.routed).filter
        (concerns change.defaultSchema pair.new.qualifiedName ·.action) =
      if change.same other.new.qualifiedName pair.new.qualifiedName then
        other.constraintActions.map .routed
      else [] := by
  have concerned : ∀ action ∈ other.constraintActions,
      concerns change.defaultSchema pair.new.qualifiedName action =
        change.same other.new.qualifiedName pair.new.qualifiedName := by
    intro action member
    rcases TableChange.of_mem_constraintActions member with
      ⟨_, _, rfl⟩ | ⟨_, _, rfl⟩ | ⟨_, _, _, rfl, _⟩ <;>
      simp only [concerns, Action.constraintEntry, same] <;> split <;> simp [*]
  split
  · rename_i agrees
    refine List.filter_eq_self.mpr (List.forall_mem_map.mpr fun action member => ?_)
    exact (concerned action member).trans agrees
  · rename_i differs
    refine List.filter_eq_nil_iff.mpr (List.forall_mem_map.mpr fun action member => ?_)
    exact (concerned action member).symm ▸ differs

theorem flatMap_same (apart : change.new.NamesApart change.defaultSchema)
    (kept : pair ∈ change.keptTables) {α : Type} (itemsOf : TableChange → List α) :
    (change.keptTables.flatMap fun other =>
        if change.same other.new.qualifiedName pair.new.qualifiedName then itemsOf other else []) =
      itemsOf pair := by
  have pairwise := pairwise_keptTables apart
  generalize change.keptTables = pairs at kept pairwise
  induction pairs with
  | nil => cases kept
  | cons first others induction =>
      rcases List.pairwise_cons.mp pairwise with ⟨firstApart, othersApart⟩
      rw [List.flatMap_cons]
      rcases List.mem_cons.mp kept with rfl | kept
      · have rest : others.flatMap (fun other =>
            if change.same other.new.qualifiedName pair.new.qualifiedName then itemsOf other
            else []) = [] := by
          refine List.flatMap_eq_nil_iff.mpr fun other member => if_neg fun agrees => ?_
          have both := QualifiedName.agrees_symm agrees
          rw [firstApart other member] at both
          cases both
        have self : change.same pair.new.qualifiedName pair.new.qualifiedName = true :=
          QualifiedName.agrees_self _
        rw [rest, if_pos self, List.append_nil]
      · have different : change.same first.new.qualifiedName pair.new.qualifiedName = false :=
          firstApart pair kept
        rw [different, if_neg nofun, List.nil_append]
        exact induction kept othersApart

theorem constraintNamesConverge_orderedActions_iff (postgres : capabilities.family = .postgres)
    (apart : change.new.NamesApart change.defaultSchema) (kept : pair ∈ change.keptTables) :
    pair.ConstraintNamesConverge change.defaultSchema
        (orderedActions (change.steps capabilities comments)) ↔
      pair.ConstraintNamesConverge change.defaultSchema
        (orderedActions (pair.constraintActions.map .routed)) := by
  have own : (change.steps capabilities comments).filter
      (concerns change.defaultSchema pair.new.qualifiedName ·.action) =
        pair.constraintActions.map .routed := by
    have twice : (change.steps capabilities comments).filter
        (concerns change.defaultSchema pair.new.qualifiedName ·.action) =
          ((change.steps capabilities comments).filter (·.action.changesConstraint)).filter
            (concerns change.defaultSchema pair.new.qualifiedName ·.action) := by
      rw [List.filter_filter]
      refine List.filter_congr fun step _ => (Bool.eq_iff_iff.mpr ?_)
      rw [Bool.and_eq_true]
      exact ⟨fun concerned => ⟨concerned, changesConstraint_of_concerns concerned⟩, And.left⟩
    rw [twice, filter_changesConstraint_steps postgres, List.filter_flatMap]
    simp only [filter_concerns_constraintActions]
    exact flatMap_same apart kept _
  have filtered : Entry.postAll? pair.old.constraintNames
      (((orderedActions (change.steps capabilities comments)).filter
          (concerns change.defaultSchema pair.new.qualifiedName)).map
        (·.constraintEntry change.defaultSchema pair.new.qualifiedName)) =
      Entry.postAll? pair.old.constraintNames
        ((orderedActions (change.steps capabilities comments)).map
          (·.constraintEntry change.defaultSchema pair.new.qualifiedName)) :=
    Entry.postAll?_map_filter fun action _ quiet => by simpa [concerns] using quiet
  rw [TableChange.ConstraintNamesConverge, ← filtered, filter_orderedActions, own]
  rfl

end SchemaChange

namespace Target

variable {target : Target} {old new : Schema} {plan : MigrationPlan} {pair : TableChange}

/-- A plan of the Postgres family turns the names of the constraints of a table with the same
columns into those of its new version exactly when none moves between the columns and the table. -/
theorem plan_constraintNamesConverge_iff (postgres : target.family = .postgres)
    (planned : target.plan old new = .ok plan)
    (apart : new.NamesApart target.capabilities.defaultSchema)
    (kept : pair ∈ (target.schemaChange old new).keptTables) (columns : pair.SameColumns)
    (oldApart : pair.old.constraintNames.Nodup) (newApart : pair.new.constraintNames.Nodup) :
    target.statements (target.orderedActions old new) = .ok plan.statements ∧
      (pair.ConstraintNamesConverge target.capabilities.defaultSchema
          (target.orderedActions old new) ↔
        pair.ConstraintNamesStay) :=
  ⟨(plan_eq_ok_iff.mp planned).1,
    (SchemaChange.constraintNamesConverge_orderedActions_iff postgres apart kept).trans
      (TableChange.constraintNamesConverge_iff (SchemaChange.name_eq_of_mem_keptTables kept) columns
        oldApart newApart)⟩

end Target

/-! ## An example -/

namespace ConstraintNameExample

def code (unique : Bool) : Column := { name := "code", dataType := "text", unique }

def note (unique : Bool) : Column := { name := "note", dataType := "text", unique }

def bounded (expression : String) : Constraint := { kind := .check expression }

def old : Table where
  name := "pages"
  columns := [code true, note false]
  constraints := [bounded "code <> note"]

def new : Table where
  name := "pages"
  columns := [code false, note true]
  constraints := [bounded "code < note"]

def moved : Table where
  name := "pages"
  columns := [code false, note false]
  constraints := [bounded "code <> note", { kind := .unique ["code"] }]

end ConstraintNameExample

open ConstraintNameExample in
/-- One constraint is added, one replaced and one dropped, each under its own name. -/
theorem plan_constraintNamesConverge_pages :
    old.constraintNames = ["pages_code_key", "pages_check"] ∧
      new.constraintNames = ["pages_note_key", "pages_check"] ∧
      ∃ plan, Target.plan ⟨Capabilities.postgres, {}⟩ { tables := [old] } { tables := [new] } =
          .ok plan ∧
        plan.statements.map (·.operation) =
          [.addConstraint, .replaceConstraint, .dropConstraint] ∧
        TableChange.ConstraintNamesConverge ⟨old, new⟩ "public" (Target.orderedActions
          ⟨Capabilities.postgres, {}⟩ { tables := [old] } { tables := [new] }) := by
  have succeeds : ∃ plan, Target.plan ⟨Capabilities.postgres, {}⟩ { tables := [old] }
      { tables := [new] } = .ok plan ∧ plan.statements.map (·.operation) =
        [.addConstraint, .replaceConstraint, .dropConstraint] := by
    decide +kernel
  rcases succeeds with ⟨plan, planned, operations⟩
  have plain : ∀ column ∈ new.columns, column.isGenerated = false := by decide
  have columns : TableChange.SameColumns ⟨old, new⟩ := by
    refine ⟨by decide, .refl _, fun column keeps => ?_⟩
    rw [ColumnChange.regenerates, plain _ keeps.1, Bool.and_false]
  refine ⟨by decide, by decide, plan, planned, operations,
    (Target.plan_constraintNamesConverge_iff rfl planned (by decide) List.mem_cons_self columns
      (by decide) (by decide)).2.mpr ⟨by decide, by decide⟩⟩

open ConstraintNameExample in
/-- A constraint that moves from its column to the table is added before it is dropped. -/
theorem plan_repeats_constraint_name_pages :
    TableChange.SameColumns ⟨old, moved⟩ ∧
      old.constraintNames.Nodup ∧ moved.constraintNames.Nodup ∧
      ∃ plan, Target.plan ⟨Capabilities.postgres, {}⟩ { tables := [old] } { tables := [moved] } =
          .ok plan ∧
        plan.statements.map (·.operation) = [.addConstraint, .dropConstraint] ∧
        ¬TableChange.ConstraintNamesConverge ⟨old, moved⟩ "public" (Target.orderedActions
          ⟨Capabilities.postgres, {}⟩ { tables := [old] } { tables := [moved] }) := by
  have plain : ∀ column ∈ moved.columns, column.isGenerated = false := by decide
  have columns : TableChange.SameColumns ⟨old, moved⟩ := by
    refine ⟨by decide, .refl _, fun column keeps => ?_⟩
    rw [ColumnChange.regenerates, plain _ keeps.1, Bool.and_false]
  refine ⟨columns, by decide, by decide, exists_ok_and_of (by decide +kernel) fun converge => ?_⟩
  rcases converge with ⟨final, posted, _⟩
  have clash : Entry.postAll? old.constraintNames ((Target.orderedActions
      ⟨Capabilities.postgres, {}⟩ { tables := [old] } { tables := [moved] }).map
        (·.constraintEntry "public" moved.qualifiedName)) = none := by decide
  cases clash.symm.trans posted

end SchemaDdl
