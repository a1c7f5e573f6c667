import Mathlib.Data.List.Basic
import Mathlib.Data.List.Pairwise
import SchemaDdl.Plan.Migration

/-!
# Tables of two versions

Which tables of two versions of a schema are one table: names are compared with missing schemas read
as the default one. Where the names of a schema are apart, a name means one table at most, and every
table that has a counterpart is matched with it.
-/

namespace SchemaDdl

namespace QualifiedName

variable {defaultSchema : String} {left middle right : QualifiedName}

theorem agrees_self (name : QualifiedName) : name.agrees defaultSchema name = true :=
  (agrees_iff ..).mpr rfl

theorem agrees_symm (same : left.agrees defaultSchema right = true) :
    right.agrees defaultSchema left = true :=
  (agrees_iff ..).mpr ((agrees_iff ..).mp same).symm

theorem agrees_trans (first : left.agrees defaultSchema middle = true)
    (second : middle.agrees defaultSchema right = true) :
    left.agrees defaultSchema right = true :=
  (agrees_iff ..).mpr (((agrees_iff ..).mp first).trans ((agrees_iff ..).mp second))

theorem agrees_of_unqualified (leftPlain : left.schema = none) (rightPlain : right.schema = none) :
    left.agrees defaultSchema right = (left.name == right.name) := by
  simp [agrees, leftPlain, rightPlain]

end QualifiedName

/-! ## Objects apart -/

def Apart {α : Type} (same : α → α → Bool) (objects : List α) : Prop :=
  objects.Pairwise fun left right => same left right = false

instance {α : Type} (same : α → α → Bool) (objects : List α) : Decidable (Apart same objects) :=
  inferInstanceAs (Decidable (List.Pairwise _ _))

namespace Apart

variable {α : Type} {same : α → α → Bool} {objects : List α} {object other : α}

theorem eq_of_same (apart : Apart same objects)
    (symmetric : ∀ left right, same left right = true → same right left = true)
    (member : object ∈ objects) (otherMember : other ∈ objects) (alike : same object other = true) :
    object = other := by
  have symm : Std.Symm fun left right => same left right = false := ⟨fun left right different => by
    rw [Bool.eq_false_iff] at different ⊢
    exact fun alike => different (symmetric right left alike)⟩
  by_contra different
  rw [List.Pairwise.forall apart member otherMember different] at alike
  cases alike

theorem exists_split (apart : Apart same objects)
    (symmetric : ∀ left right, same left right = true → same right left = true)
    (member : object ∈ objects) : ∃ before after, objects = before ++ object :: after ∧
      ∀ other ∈ before ++ after, same other object = false := by
  rcases List.append_of_mem member with ⟨before, after, rfl⟩
  rcases List.pairwise_append.mp apart with ⟨_, behind, across⟩
  refine ⟨before, after, rfl, fun other otherMember => ?_⟩
  rcases List.mem_append.mp otherMember with front | back
  · exact across other front object List.mem_cons_self
  · have different := (List.pairwise_cons.mp behind).1 other back
    exact Bool.eq_false_iff.mpr fun alike =>
      Bool.eq_false_iff.mp different (symmetric other object alike)

theorem find?_eq_some (apart : Apart same objects)
    (symmetric : ∀ left right, same left right = true → same right left = true)
    (member : object ∈ objects) (reflexive : same object object = true) :
    objects.find? (same · object) = some object := by
  cases found : objects.find? (same · object) with
  | none => exact absurd reflexive (List.find?_eq_none.mp found object member)
  | some first =>
      have alike := List.find?_some found
      rw [apart.eq_of_same symmetric (List.mem_of_find?_eq_some found) member alike]

theorem nodup (apart : Apart same objects) (reflexive : ∀ object, same object object = true) :
    objects.Nodup := by
  refine List.Pairwise.imp (fun {left right} different equal => ?_) apart
  rw [equal, reflexive] at different
  cases different

end Apart

/-- Whether no two of some objects have names that mean the same. -/
def NamedApart {α : Type} (defaultSchema : String) (name : α → QualifiedName) (objects : List α) :
    Prop :=
  Apart (fun left right => (name left).agrees defaultSchema (name right)) objects

instance {α : Type} (defaultSchema : String) (name : α → QualifiedName) (objects : List α) :
    Decidable (NamedApart defaultSchema name objects) :=
  inferInstanceAs (Decidable (Apart _ _))

/-! ## Ways to match objects -/

structure Matches {α : Type} (same : α → α → Bool) : Prop where
  symm : ∀ left right, same left right = true → same right left = true
  trans : ∀ left middle right, same left middle = true → same middle right = true →
    same left right = true

theorem matches_texts {α : Type} {name : α → String} :
    Matches fun left right : α => name left == name right :=
  ⟨fun _ _ => BEq.symm, fun _ _ _ => BEq.trans⟩

theorem matches_names {α : Type} {defaultSchema : String} {name : α → QualifiedName} :
    Matches fun left right : α => (name left).agrees defaultSchema (name right) :=
  ⟨fun _ _ => QualifiedName.agrees_symm, fun _ _ _ => QualifiedName.agrees_trans⟩

theorem matches_rules {α : Type} {defaultSchema : String} {name : α → String}
    {table : α → QualifiedName} : Matches fun left right : α =>
      name left == name right && (table left).agrees defaultSchema (table right) := by
  refine ⟨fun left right alike => ?_, fun left middle right first second => ?_⟩
  · rcases Bool.and_eq_true_iff.mp alike with ⟨names, tables⟩
    exact Bool.and_eq_true_iff.mpr ⟨BEq.symm names, QualifiedName.agrees_symm tables⟩
  · rcases Bool.and_eq_true_iff.mp first with ⟨firstName, firstTable⟩
    rcases Bool.and_eq_true_iff.mp second with ⟨secondName, secondTable⟩
    exact Bool.and_eq_true_iff.mpr
      ⟨BEq.trans firstName secondName, QualifiedName.agrees_trans firstTable secondTable⟩

theorem Apart.find?_of_same {α : Type} {same : α → α → Bool} {olds : List α}
    {old new : α} (apart : Apart same olds) (matching : Matches same) (member : old ∈ olds)
    (alike : same old new = true) : olds.find? (same · new) = some old := by
  cases found : olds.find? (same · new) with
  | none => exact absurd alike (List.find?_eq_none.mp found old member)
  | some first =>
      have firstAlike := List.find?_some found
      have both := matching.trans first new old firstAlike (matching.symm old new alike)
      rw [apart.eq_of_same matching.symm (List.mem_of_find?_eq_some found) member both]

/-! ## Tables of a schema -/

/-- Whether no two tables of a schema have names that mean the same. -/
def Schema.NamesApart (defaultSchema : String) (schema : Schema) : Prop :=
  schema.tables.Pairwise fun left right =>
    left.qualifiedName.agrees defaultSchema right.qualifiedName = false

instance (defaultSchema : String) (schema : Schema) :
    Decidable (schema.NamesApart defaultSchema) :=
  inferInstanceAs (Decidable (List.Pairwise _ _))

namespace Schema

variable {defaultSchema : String} {schema : Schema}

theorem tableMatching?_of_namesApart (apart : schema.NamesApart defaultSchema) {table : Table}
    {name : QualifiedName} (member : table ∈ schema.tables)
    (same : table.qualifiedName.agrees defaultSchema name = true) :
    schema.tableMatching? defaultSchema name = some table := by
  unfold tableMatching?
  unfold NamesApart at apart
  generalize schema.tables = tables at apart member ⊢
  induction tables with
  | nil => cases member
  | cons first others induction =>
      rcases List.pairwise_cons.mp apart with ⟨firstApart, othersApart⟩
      rcases List.mem_cons.mp member with equal | member
      · subst equal
        exact List.find?_cons_of_pos same
      · -- The first table does not agree, or else it would agree with the one that is meant.
        have different : first.qualifiedName.agrees defaultSchema name = false := by
          rw [Bool.eq_false_iff]
          intro firstSame
          have both := QualifiedName.agrees_trans firstSame (QualifiedName.agrees_symm same)
          rw [firstApart table member] at both
          cases both
        simp only [List.find?_cons, different]
        exact induction othersApart member

theorem tableMatching?_eq_none_iff {name : QualifiedName} :
    schema.tableMatching? defaultSchema name = none ↔
      ∀ table ∈ schema.tables, table.qualifiedName.agrees defaultSchema name = false := by
  simp [tableMatching?]

end Schema

namespace SchemaChange

variable {change : SchemaChange}

theorem mem_createdTables {table : Table} :
    table ∈ change.createdTables ↔ table ∈ change.new.tables ∧
      ∀ other ∈ change.old.tables,
        other.qualifiedName.agrees change.defaultSchema table.qualifiedName = false := by
  simp [createdTables, Schema.tableMatching?_eq_none_iff]

theorem mem_droppedTables {table : Table} :
    table ∈ change.droppedTables ↔ table ∈ change.old.tables ∧
      ∀ other ∈ change.new.tables,
        other.qualifiedName.agrees change.defaultSchema table.qualifiedName = false := by
  simp [droppedTables, Schema.tableMatching?_eq_none_iff]

theorem createdTables_eq_nil (held : ∀ table ∈ change.new.tables, ∃ other ∈ change.old.tables,
    other.qualifiedName.agrees change.defaultSchema table.qualifiedName = true) :
    change.createdTables = [] := by
  refine List.eq_nil_iff_forall_not_mem.mpr fun table created => ?_
  rcases mem_createdTables.mp created with ⟨member, different⟩
  rcases held table member with ⟨other, otherMember, agrees⟩
  cases (different other otherMember).symm.trans agrees

theorem droppedTables_eq_nil (kept : ∀ table ∈ change.old.tables, ∃ other ∈ change.new.tables,
    other.qualifiedName.agrees change.defaultSchema table.qualifiedName = true) :
    change.droppedTables = [] := by
  refine List.eq_nil_iff_forall_not_mem.mpr fun table dropped => ?_
  rcases mem_droppedTables.mp dropped with ⟨member, different⟩
  rcases kept table member with ⟨other, otherMember, agrees⟩
  cases (different other otherMember).symm.trans agrees

theorem mem_keptTables {pair : TableChange} :
    pair ∈ change.keptTables ↔ pair.new ∈ change.new.tables ∧
      change.old.tableMatching? change.defaultSchema pair.new.qualifiedName = some pair.old := by
  simp only [keptTables, List.mem_filterMap, Option.map_eq_some_iff]
  constructor
  · intro holds
    rcases holds with ⟨table, member, old, found, rfl⟩
    exact ⟨member, found⟩
  · intro holds
    rcases holds with ⟨member, found⟩
    exact ⟨pair.new, member, pair.old, found, rfl⟩

theorem agrees_of_mem_keptTables {pair : TableChange} (kept : pair ∈ change.keptTables) :
    pair.old.qualifiedName.agrees change.defaultSchema pair.new.qualifiedName = true := by
  have found := List.find?_some (mem_keptTables.mp kept).2
  exact found

theorem name_eq_of_mem_keptTables {pair : TableChange} (kept : pair ∈ change.keptTables) :
    pair.old.name = pair.new.name := by
  have same := agrees_of_mem_keptTables kept
  simp only [QualifiedName.agrees, Bool.and_eq_true, beq_iff_eq] at same
  exact same.1

theorem map_new_keptTables :
    change.keptTables.map (·.new) = change.new.tables.filter fun table =>
      !(change.old.tableMatching? change.defaultSchema table.qualifiedName).isNone := by
  rw [keptTables, List.map_filterMap, ← List.filterMap_eq_filter]
  refine List.filterMap_congr fun table _ => ?_
  cases found : change.old.tableMatching? change.defaultSchema table.qualifiedName <;>
    simp [Option.guard, found]

theorem pairwise_keptTables (apart : change.new.NamesApart change.defaultSchema) :
    change.keptTables.Pairwise fun left right =>
      left.new.qualifiedName.agrees change.defaultSchema right.new.qualifiedName = false := by
  have kept : (change.keptTables.map (·.new)).Pairwise fun left right =>
      left.qualifiedName.agrees change.defaultSchema right.qualifiedName = false := by
    rw [map_new_keptTables]
    exact List.Pairwise.filter _ apart
  exact List.pairwise_map.mp kept

theorem mem_keptTables_of_agrees (apart : change.old.NamesApart change.defaultSchema)
    {old new : Table} (oldMember : old ∈ change.old.tables) (newMember : new ∈ change.new.tables)
    (same : old.qualifiedName.agrees change.defaultSchema new.qualifiedName = true) :
    ⟨old, new⟩ ∈ change.keptTables :=
  mem_keptTables.mpr ⟨newMember, Schema.tableMatching?_of_namesApart apart oldMember same⟩

end SchemaChange

end SchemaDdl
