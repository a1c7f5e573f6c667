import Mathlib.Data.List.Perm.Basic
import SchemaDdl.Capability.BuiltIn
import SchemaDdl.Proofs.Plan.Regeneration
import SchemaDdl.Proofs.Plan.Spelling

/-!
# Constraints after an alteration

The constraints of two versions of a table are told apart by name and content, but they are dropped
by name alone. Where constraints share a name, an alteration of the Postgres family may take away
what it does not bring back.
-/

namespace SchemaDdl

/-! ## Constraints by name -/

/-- The constraints of a table after an action. Dropping a name takes away all constraints of that
name. Constraints that belong to a column, and the primary key, are not among them. -/
def Action.constraintsAfter (held : List (String × ConstraintKind)) :
    Action → List (String × ConstraintKind)
  | .dropConstraint _ name subject =>
      if name = subject then held.filter (·.1 ≠ name) else held
  | .addConstraint _ constraint subject =>
      if constraint.name = some subject then held ++ [(subject, constraint.kind)] else held
  | .replaceConstraint _ name constraint subject =>
      if constraint.name = some subject then
        held.filter (·.1 ≠ name) ++ [(subject, constraint.kind)]
      else
        held
  | .replacePrimaryKey change =>
      if change.old.primaryKeyColumns.isEmpty then held
      else held.filter (·.1 ≠ change.old.primaryKeyName)
  | _ => held

/-- The constraints of a table after actions, one after another. -/
def Action.constraintsAfterAll (held : List (String × ConstraintKind)) (actions : List Action) :
    List (String × ConstraintKind) :=
  actions.foldl constraintsAfter held

def constraintsNamed (name : String) (keys : List (String × ConstraintKind)) :
    List (String × ConstraintKind) :=
  keys.filter (·.1 = name)

section

variable {name other : String} {key : String × ConstraintKind}
  {held keys : List (String × ConstraintKind)}

theorem mem_constraintsNamed : key ∈ constraintsNamed name keys ↔ key ∈ keys ∧ key.1 = name := by
  simp [constraintsNamed]

@[simp] theorem constraintsNamed_append : constraintsNamed name (held ++ keys) =
    constraintsNamed name held ++ constraintsNamed name keys :=
  List.filter_append ..

theorem constraintsNamed_cons : constraintsNamed name (key :: keys) =
    if key.1 = name then key :: constraintsNamed name keys else constraintsNamed name keys := by
  simp [constraintsNamed, List.filter_cons]

theorem constraintsNamed_filter_ne : constraintsNamed name (keys.filter (·.1 ≠ other)) =
    if name = other then [] else constraintsNamed name keys := by
  unfold constraintsNamed
  rw [List.filter_filter]
  split
  · rename_i same
    exact List.filter_eq_nil_iff.mpr fun key _ => by simp [same]
  · rename_i different
    refine List.filter_congr fun key _ => ?_
    by_cases named : key.1 = name
    · simp [named, different]
    · simp [named]

theorem count_constraintsNamed : (constraintsNamed key.1 keys).count key = keys.count key :=
  List.count_filter (by simp)

theorem perm_iff_constraintsNamed : held.Perm keys ↔
    ∀ name, (constraintsNamed name held).Perm (constraintsNamed name keys) := by
  constructor
  · exact fun same name => same.filter _
  · intro each
    refine List.perm_iff_count.mpr fun key => ?_
    rw [← count_constraintsNamed, (each key.1).count_eq key, count_constraintsNamed]

theorem Action.constraintsAfterAll_append {actions others : List Action} :
    constraintsAfterAll held (actions ++ others) =
      constraintsAfterAll (constraintsAfterAll held actions) others :=
  List.foldl_append

theorem Action.constraintsAfterAll_of_forall {actions : List Action}
    (each : ∀ action ∈ actions, ∀ held, action.constraintsAfter held = held) :
    constraintsAfterAll held actions = held := by
  induction actions with
  | nil => rfl
  | cons action actions induction =>
      rw [List.forall_mem_cons] at each
      rw [constraintsAfterAll, List.foldl_cons, each.1]
      exact induction each.2

end

namespace TableChange

variable {change : TableChange} {capabilities : Capabilities} {comments : Bool} {name : String}
  {held : List (String × ConstraintKind)}

/-! ## Actions that leave constraints alone -/

theorem constraintsAfter_of_mem_columnConstraintActions {pair : ColumnChange}
    {constraint : ColumnConstraint} {action : Action} (keeps : change.KeepsColumn pair)
    (member : action ∈ constraint.actions change.old change.new pair) :
    action.constraintsAfter held = held := by
  have oldName : constraint.name change.old pair.old ≠ pair.new.name :=
    keeps.old_name ▸ constraint.name_ne
  have newName : some (constraint.name change.new pair.new) ≠ some pair.new.name :=
    fun same => constraint.name_ne (Option.some.inj same)
  rcases (ColumnConstraint.mem_actions_iff.mp member).2 with
    ⟨_, _, rfl⟩ | ⟨_, _, _, rfl⟩ | ⟨_, _, _, rfl⟩
  · exact if_neg oldName
  · exact if_neg newName
  · exact if_neg newName

theorem constraintsAfter_of_mem_columnActions {pair : ColumnChange}
    (keeps : change.KeepsColumn pair) :
    ∀ action ∈ change.columnActions comments pair, ∀ held, action.constraintsAfter held = held := by
  have constraints : ∀ action ∈ [ColumnConstraint.unique, .foreignKey, .check].flatMap
      (ColumnConstraint.actions change.old change.new pair),
        ∀ held, action.constraintsAfter held = held := by
    intro action member held
    rcases List.mem_flatMap.mp member with ⟨constraint, _, member⟩
    exact constraintsAfter_of_mem_columnConstraintActions keeps member
  have identity : ∀ action ∈ change.identityActions pair,
      ∀ held, action.constraintsAfter held = held := by
    intro action member held
    rcases exists_of_mem_identityActions action member with ⟨kind, rfl⟩
    rfl
  cases regenerates : pair.regenerates with
  | true =>
      rw [columnActions_of_regenerates regenerates]
      simp [Action.constraintsAfter]
  | false =>
      unfold columnActions
      rw [regenerates]
      simp only [Bool.false_eq_true, if_false, List.forall_mem_append, forall_mem_actionIf]
      exact ⟨⟨⟨⟨⟨⟨fun _ _ => rfl, fun _ _ => rfl⟩, fun _ _ => rfl⟩, identity⟩, fun _ _ => rfl⟩,
        constraints⟩, fun _ _ => rfl⟩

/-- What is done to the constraints of a table: those that are gone are dropped, the old primary key
is dropped, and the new constraints are added. -/
def constraintExchange (change : TableChange) : List Action :=
  change.removedConstraintActions ++ actionIf change.primaryKeyChanged (.replacePrimaryKey change)
    ++ change.addedConstraintActions

theorem constraintsAfterAll_actions (postgres : capabilities.family = .postgres) :
    Action.constraintsAfterAll held (change.actions capabilities comments) =
      Action.constraintsAfterAll held change.constraintExchange := by
  have added : ∀ held, Action.constraintsAfterAll held change.columnAdditions = held := fun _ =>
    Action.constraintsAfterAll_of_forall (List.forall_mem_map.mpr fun _ _ _ => rfl)
  have removed : ∀ held, Action.constraintsAfterAll held change.columnRemovals = held := fun _ =>
    Action.constraintsAfterAll_of_forall (List.forall_mem_map.mpr fun _ _ _ => rfl)
  have altered (comments : Bool) : ∀ held, Action.constraintsAfterAll held
      (change.altered.flatMap (change.columnActions comments)) = held := fun _ =>
    Action.constraintsAfterAll_of_forall (List.forall_mem_flatMap.mpr fun pair member =>
      constraintsAfter_of_mem_columnActions (mem_altered.mp member).1)
  have settings (settings : List TableSetting) : ∀ held, Action.constraintsAfterAll held
      (settings.map (Action.setTable change.new.qualifiedName)) = held := fun _ =>
    Action.constraintsAfterAll_of_forall (List.forall_mem_map.mpr fun _ _ _ => rfl)
  have refusals : ∀ held, Action.constraintsAfterAll held change.refusals = held := fun _ =>
    Action.constraintsAfterAll_of_forall (by
      simp only [TableChange.refusals, List.forall_mem_append, forall_mem_actionIf]
      exact ⟨⟨fun _ _ => rfl, fun _ _ => rfl⟩, fun _ _ => rfl⟩)
  have options : ∀ held, Action.constraintsAfterAll held (if change.optionsChanged then
      change.refusals ++ (change.optionSettings capabilities).map
        (Action.setTable change.new.qualifiedName) else []) = held := by
    intro held
    split
    · rw [Action.constraintsAfterAll_append, refusals, settings]
    · rfl
  have comment (condition : Bool) (comment : Option String) : ∀ held,
      Action.constraintsAfterAll held
        (actionIf condition (.commentTable change.new.qualifiedName comment)) = held := fun _ =>
    Action.constraintsAfterAll_of_forall (forall_mem_actionIf.mpr fun _ _ => rfl)
  rw [actions_of_postgres postgres]
  simp only [tableActions, constraintExchange, Action.constraintsAfterAll_append, added, removed,
    altered, options, settings, comment]

/-! ## The constraints of one name -/

theorem constraintsNamed_dropped {table : QualifiedName} {names : List String} :
    constraintsNamed name
        (Action.constraintsAfterAll held (names.map fun name => .dropConstraint table name name)) =
      if name ∈ names then [] else constraintsNamed name held := by
  induction names generalizing held with
  | nil => rfl
  | cons dropped names induction =>
      have first : Action.constraintsAfter held (.dropConstraint table dropped dropped) =
          held.filter (·.1 ≠ dropped) := if_pos rfl
      rw [List.map_cons, Action.constraintsAfterAll, List.foldl_cons, first,
        ← Action.constraintsAfterAll, induction, constraintsNamed_filter_ne]
      by_cases same : name = dropped <;> simp [same]

/-- How a new constraint is added, which is in one statement with dropping its name where that is
dropped at all. -/
def additionOf (change : TableChange) (named : String × Constraint) : Action :=
  let constraint : Constraint := { named.2 with name := some named.1 }
  if change.replaces named.1 then .replaceConstraint change.new named.1 constraint named.1
  else .addConstraint change.new constraint named.1

theorem constraintsAfter_additionOf {named : String × Constraint} :
    (change.additionOf named).constraintsAfter held =
      (if change.replaces named.1 then held.filter (·.1 ≠ named.1) else held)
        ++ [(named.1, named.2.kind)] := by
  unfold additionOf
  split <;> exact if_pos rfl

theorem constraintsNamed_additionOf {named : String × Constraint} :
    constraintsNamed name ((change.additionOf named).constraintsAfter held) =
      if named.1 = name then
        (if change.replaces name then [] else constraintsNamed name held)
          ++ [(name, named.2.kind)]
      else
        constraintsNamed name held := by
  have dropped := @constraintsNamed_filter_ne name named.1 held
  have nothing : constraintsNamed name [] = [] := rfl
  rw [constraintsAfter_additionOf, constraintsNamed_append, constraintsNamed_cons, nothing]
  by_cases same : named.1 = name
  · subst same
    rw [if_pos rfl] at dropped
    cases change.replaces named.1 <;> simp only [Bool.false_eq_true, if_true, if_false, dropped]
  · rw [if_neg (Ne.symm same)] at dropped
    cases change.replaces named.1 <;>
      simp only [Bool.false_eq_true, if_true, if_false, dropped, same, List.append_nil]

theorem constraintsNamed_added {added : List (String × Constraint)}
    (plain : change.replaces name = false) :
    constraintsNamed name (Action.constraintsAfterAll held (added.map change.additionOf)) =
      constraintsNamed name held
        ++ constraintsNamed name (added.map fun named => (named.1, named.2.kind)) := by
  induction added generalizing held with
  | nil => exact (List.append_nil _).symm
  | cons named added induction =>
      rw [List.map_cons, Action.constraintsAfterAll, List.foldl_cons, ← Action.constraintsAfterAll,
        induction, constraintsNamed_additionOf, plain, List.map_cons, constraintsNamed_cons]
      by_cases same : named.1 = name <;> simp [same]

theorem exists_constraintsNamed_replaced (held : List (String × ConstraintKind))
    {added : List (String × Constraint)} (replaces : change.replaces name = true)
    (some : ∃ named ∈ added, named.1 = name) :
    ∃ named ∈ added, named.1 = name ∧
      constraintsNamed name (Action.constraintsAfterAll held (added.map change.additionOf)) =
        [(name, named.2.kind)] := by
  induction added using List.reverseRecOn with
  | nil => simp at some
  | append_singleton added last induction =>
      rw [List.map_append, Action.constraintsAfterAll_append]
      have final : ∀ held, Action.constraintsAfterAll held ([last].map change.additionOf) =
          (change.additionOf last).constraintsAfter held := fun _ => rfl
      rw [final, constraintsNamed_additionOf, replaces]
      by_cases same : last.1 = name
      · exact ⟨last, by simp, same, by simp [same]⟩
      · rcases some with ⟨named, member, equal⟩
        have earlier : named ∈ added := by
          rcases List.mem_append.mp member with member | member
          · exact member
          · exact absurd (List.mem_singleton.mp member ▸ equal) same
        rcases induction ⟨named, earlier, equal⟩ with ⟨kept, among, keptName, holds⟩
        exact ⟨kept, List.mem_append_left _ among, keptName, by simpa [same] using holds⟩

/-! ## Versions of a table -/

def GivesUp (change : TableChange) (name : String) : Prop :=
  ∃ key ∈ change.old.constraintKeys, key.1 = name ∧ key ∉ change.new.constraintKeys

def DropsKeyNamed (change : TableChange) (name : String) : Prop :=
  change.old.primaryKeyColumns ≠ change.new.primaryKeyColumns ∧
    change.old.primaryKeyColumns ≠ [] ∧ change.old.primaryKeyName = name

/-- Whether no constraint is lost when the constraints of a table are dropped by name: where a
constraint is given up, the new version has no other of its name that was there before and one new
one at most; where it stays, it is not dropped for another one, and it is there as often as
before. -/
structure ConstraintsTurnOver (change : TableChange) : Prop where
  kept : ∀ key ∈ change.old.constraintKeys, key ∈ change.new.constraintKeys →
    ¬change.GivesUp key.1 ∧ ¬change.DropsKeyNamed key.1 ∧
      change.old.constraintKeys.count key = change.new.constraintKeys.count key
  gone : ∀ name, change.GivesUp name →
    (constraintsNamed name change.new.constraintKeys).length ≤ 1

theorem map_constraintsOnlyIn {first second : Table} :
    (constraintsOnlyIn first second).map (fun named => (named.1, named.2.kind)) =
      first.constraintKeys.filter (· ∉ second.constraintKeys) := by
  unfold constraintsOnlyIn Table.constraintKeys
  rw [List.filter_map]
  congr 1
  refine List.filter_congr fun named _ => ?_
  have found : (second.namedConstraints.any fun other =>
      other.1 == named.1 && other.2.kind == named.2.kind) =
        decide ((named.1, named.2.kind) ∈ second.constraintKeys) := by
    rw [Bool.eq_iff_iff, List.any_eq_true, decide_eq_true_iff, Table.constraintKeys, List.mem_map]
    simp only [Bool.and_eq_true, beq_iff_eq, Prod.mk.injEq]
  exact (congrArg not found).trans decide_not.symm

theorem exists_mem_constraintsOnlyIn_iff {first second : Table} :
    (∃ named ∈ constraintsOnlyIn first second, named.1 = name) ↔
      ∃ key ∈ first.constraintKeys, key.1 = name ∧ key ∉ second.constraintKeys := by
  have image : (∃ key ∈ first.constraintKeys.filter (· ∉ second.constraintKeys), key.1 = name) ↔
      ∃ named ∈ constraintsOnlyIn first second, named.1 = name := by
    rw [← map_constraintsOnlyIn]
    simp
  rw [← image]
  simp only [List.mem_filter, decide_eq_true_eq, and_assoc]
  exact exists_congr fun key => and_congr_right fun _ => and_comm

theorem givesUp_iff : change.GivesUp name ↔ ∃ named ∈ change.removedConstraints, named.1 = name :=
  exists_mem_constraintsOnlyIn_iff.symm

theorem replaces_iff_givesUp : change.replaces name = true ↔
    change.GivesUp name ∧ ∃ named ∈ change.addedConstraints, named.1 = name := by
  rw [givesUp_iff, replaces, Bool.and_eq_true, List.any_eq_true, List.any_eq_true]
  simp only [beq_iff_eq]
  exact and_comm

theorem replaces_eq_false_of_not_givesUp (stays : ¬change.GivesUp name) :
    change.replaces name = false :=
  Bool.eq_false_iff.mpr fun replaces => stays (replaces_iff_givesUp.mp replaces).1

/-! ## The constraints of a name after the exchange -/

theorem constraintsNamed_removedConstraintActions :
    constraintsNamed name (Action.constraintsAfterAll held change.removedConstraintActions) =
      if (∃ named ∈ change.removedConstraints, named.1 = name) ∧ change.replaces name = false
      then [] else constraintsNamed name held := by
  have drops : change.removedConstraintActions =
      ((change.removedConstraints.filter fun named => !change.replaces named.1).map (·.1)).map
        fun name => .dropConstraint change.new.qualifiedName name name := by
    rw [List.map_map]
    rfl
  have dropped : name ∈ (change.removedConstraints.filter fun named =>
      !change.replaces named.1).map (·.1) ↔
        (∃ named ∈ change.removedConstraints, named.1 = name) ∧ change.replaces name = false := by
    simp only [List.mem_map, List.mem_filter, Bool.not_eq_true']
    constructor
    · intro holds
      rcases holds with ⟨named, ⟨member, alone⟩, rfl⟩
      exact ⟨⟨named, member, rfl⟩, alone⟩
    · intro holds
      rcases holds with ⟨⟨named, member, rfl⟩, alone⟩
      exact ⟨named, ⟨member, alone⟩, rfl⟩
  rw [drops, constraintsNamed_dropped]
  simp only [dropped]

instance : Decidable (change.DropsKeyNamed name) :=
  inferInstanceAs (Decidable (_ ∧ _ ∧ _))

theorem constraintsNamed_replacePrimaryKey :
    constraintsNamed name (Action.constraintsAfterAll held
        (actionIf change.primaryKeyChanged (.replacePrimaryKey change))) =
      if change.DropsKeyNamed name then [] else constraintsNamed name held := by
  have dropped := @constraintsNamed_filter_ne name change.old.primaryKeyName held
  by_cases drops : change.DropsKeyNamed name
  · have changed : change.primaryKeyChanged = true := bne_iff_ne.mpr drops.1
    have effect : Action.constraintsAfterAll held [.replacePrimaryKey change] =
        held.filter (·.1 ≠ change.old.primaryKeyName) :=
      if_neg (List.isEmpty_iff.not.mpr drops.2.1)
    rw [if_pos drops, actionIf, if_pos changed, effect, dropped, if_pos drops.2.2.symm]
  · rw [if_neg drops]
    unfold actionIf
    split
    · rename_i changed
      have effect : Action.constraintsAfterAll held [.replacePrimaryKey change] =
          if change.old.primaryKeyColumns.isEmpty then held
          else held.filter (·.1 ≠ change.old.primaryKeyName) := rfl
      rw [effect]
      split
      · rfl
      · rename_i some
        rw [dropped, if_neg fun same =>
          drops ⟨bne_iff_ne.mp changed, List.isEmpty_iff.not.mp some, same.symm⟩]
    · rfl

/-- A name under which nothing is given up keeps what it has, unless it is that of the primary key,
and gets what is new. -/
theorem constraintsNamed_of_not_givesUp (stays : ¬change.GivesUp name) :
    constraintsNamed name (Action.constraintsAfterAll held change.constraintExchange) =
      (if change.DropsKeyNamed name then [] else constraintsNamed name held)
        ++ constraintsNamed name
          (change.new.constraintKeys.filter (· ∉ change.old.constraintKeys)) := by
  have additions : change.addedConstraintActions =
      change.addedConstraints.map change.additionOf := rfl
  have added : change.addedConstraints.map (fun named => (named.1, named.2.kind)) =
      change.new.constraintKeys.filter (· ∉ change.old.constraintKeys) := map_constraintsOnlyIn
  have untouched : constraintsNamed name
      (Action.constraintsAfterAll held change.removedConstraintActions) =
        constraintsNamed name held := by
    rw [constraintsNamed_removedConstraintActions,
      if_neg fun holds => stays (givesUp_iff.mpr holds.1)]
  rw [constraintExchange, Action.constraintsAfterAll_append, Action.constraintsAfterAll_append,
    additions, constraintsNamed_added (replaces_eq_false_of_not_givesUp stays), added,
    constraintsNamed_replacePrimaryKey, untouched]

theorem constraintsNamed_of_givesUp (gone : change.GivesUp name) :
    (∃ key ∈ change.new.constraintKeys, key.1 = name ∧ key ∉ change.old.constraintKeys ∧
      constraintsNamed name (Action.constraintsAfterAll held change.constraintExchange) = [key]) ∨
    (∀ key ∈ change.new.constraintKeys, key.1 = name → key ∈ change.old.constraintKeys) ∧
      constraintsNamed name (Action.constraintsAfterAll held change.constraintExchange) = [] := by
  have additions : change.addedConstraintActions =
      change.addedConstraints.map change.additionOf := rfl
  rw [constraintExchange, Action.constraintsAfterAll_append, Action.constraintsAfterAll_append,
    additions]
  cases replaces : change.replaces name with
  | true =>
      rcases exists_constraintsNamed_replaced _ replaces (replaces_iff_givesUp.mp replaces).2 with
        ⟨named, member, equal, holds⟩
      have new : (named.1, named.2.kind) ∈
          change.new.constraintKeys.filter (· ∉ change.old.constraintKeys) := by
        rw [← map_constraintsOnlyIn]
        exact List.mem_map_of_mem member
      rcases List.mem_filter.mp new with ⟨among, fresh⟩
      rw [equal] at among fresh
      exact .inl ⟨_, among, rfl, of_decide_eq_true fresh, holds⟩
  | false =>
      have nothing : ¬∃ named ∈ change.addedConstraints, named.1 = name := fun added =>
        Bool.eq_false_iff.mp replaces (replaces_iff_givesUp.mpr ⟨gone, added⟩)
      have left : ∀ key ∈ change.new.constraintKeys, key.1 = name →
          key ∈ change.old.constraintKeys := fun key member named => by
        by_contra fresh
        exact nothing (exists_mem_constraintsOnlyIn_iff.mpr ⟨key, member, named, fresh⟩)
      have unadded : constraintsNamed name
          (change.addedConstraints.map fun named => (named.1, named.2.kind)) = [] := by
        refine List.filter_eq_nil_iff.mpr (List.forall_mem_map.mpr fun named member => ?_)
        exact fun same => nothing ⟨named, member, of_decide_eq_true same⟩
      have dropped : constraintsNamed name
          (Action.constraintsAfterAll held change.removedConstraintActions) = [] := by
        rw [constraintsNamed_removedConstraintActions, if_pos ⟨givesUp_iff.mp gone, replaces⟩]
      refine .inr ⟨left, ?_⟩
      rw [constraintsNamed_added replaces, constraintsNamed_replacePrimaryKey, dropped, unadded,
        ite_self, List.append_nil]

/-! ## Whether constraints are lost -/

theorem not_mem_fresh {key : String × ConstraintKind} (old : key ∈ change.old.constraintKeys) :
    key ∉ change.new.constraintKeys.filter (· ∉ change.old.constraintKeys) :=
  fun member => of_decide_eq_true (List.mem_filter.mp member).2 old

theorem constraintsTurnOver_of_perm
    (same : (Action.constraintsAfterAll change.old.constraintKeys change.constraintExchange).Perm
      change.new.constraintKeys) : change.ConstraintsTurnOver := by
  have each := perm_iff_constraintsNamed.mp same
  constructor
  · intro key old new
    have named : key ∈ constraintsNamed key.1 change.new.constraintKeys :=
      mem_constraintsNamed.mpr ⟨new, rfl⟩
    have left := (each key.1).mem_iff.mpr named
    have stays : ¬change.GivesUp key.1 := by
      intro gone
      rcases constraintsNamed_of_givesUp gone with ⟨added, _, _, fresh, last⟩ | ⟨_, nothing⟩
      · rw [last] at left
        exact fresh (List.mem_singleton.mp left ▸ old)
      · rw [nothing] at left
        exact List.not_mem_nil left
    have alone : ¬change.DropsKeyNamed key.1 := by
      intro drops
      rw [constraintsNamed_of_not_givesUp stays, if_pos drops, List.nil_append] at left
      exact not_mem_fresh old (mem_constraintsNamed.mp left).1
    have counts := (each key.1).count_eq key
    rw [constraintsNamed_of_not_givesUp stays, if_neg alone, List.count_append,
      count_constraintsNamed, count_constraintsNamed, count_constraintsNamed,
      List.count_eq_zero_of_not_mem (not_mem_fresh old), Nat.add_zero] at counts
    exact ⟨stays, alone, counts⟩
  · intro name gone
    rw [← (each name).length_eq]
    rcases constraintsNamed_of_givesUp gone with ⟨key, _, _, _, last⟩ | ⟨_, nothing⟩
    · rw [last, List.length_singleton]
    · rw [nothing]
      exact Nat.zero_le 1

theorem ConstraintsTurnOver.perm_of_givesUp (turnOver : change.ConstraintsTurnOver)
    (gone : change.GivesUp name) :
    (constraintsNamed name
        (Action.constraintsAfterAll change.old.constraintKeys change.constraintExchange)).Perm
      (constraintsNamed name change.new.constraintKeys) := by
  have few := turnOver.gone name gone
  rcases constraintsNamed_of_givesUp gone with ⟨key, new, named, _, last⟩ | ⟨none, nothing⟩
  · have member : key ∈ constraintsNamed name change.new.constraintKeys :=
      mem_constraintsNamed.mpr ⟨new, named⟩
    have one : constraintsNamed name change.new.constraintKeys = [key] := by
      rcases List.length_eq_one_iff.mp (few.antisymm (List.length_pos_of_mem member)) with
        ⟨only, equal⟩
      rw [equal] at member ⊢
      rw [List.mem_singleton.mp member]
    rw [last, one]
  · have empty : constraintsNamed name change.new.constraintKeys = [] := by
      refine List.eq_nil_iff_forall_not_mem.mpr fun key member => ?_
      rcases mem_constraintsNamed.mp member with ⟨new, named⟩
      exact (turnOver.kept key (none key new named) new).1 (named ▸ gone)
    rw [nothing, empty]

/-- Where no constraint is given up, those of both versions are kept as often as they are there, and
the others are new. -/
theorem ConstraintsTurnOver.perm_of_not_givesUp (turnOver : change.ConstraintsTurnOver)
    (stays : ¬change.GivesUp name) :
    (constraintsNamed name
        (Action.constraintsAfterAll change.old.constraintKeys change.constraintExchange)).Perm
      (constraintsNamed name change.new.constraintKeys) := by
  refine List.perm_iff_count.mpr fun key => ?_
  rw [constraintsNamed_of_not_givesUp stays, List.count_append]
  by_cases named : key.1 = name
  · subst named
    have old : (if change.DropsKeyNamed key.1 then []
        else constraintsNamed key.1 change.old.constraintKeys).count key =
          if key ∈ change.old.constraintKeys then change.new.constraintKeys.count key else 0 := by
      by_cases held : key ∈ change.old.constraintKeys
      · have new : key ∈ change.new.constraintKeys :=
          by_contra fun gone => stays ⟨key, held, rfl, gone⟩
        rcases turnOver.kept key held new with ⟨_, alone, counts⟩
        rw [if_neg alone, count_constraintsNamed, if_pos held, counts]
      · have none : key ∉ constraintsNamed key.1 change.old.constraintKeys := fun member =>
          held (mem_constraintsNamed.mp member).1
        rw [if_neg held]
        split
        · rfl
        · exact List.count_eq_zero_of_not_mem none
    rw [old, count_constraintsNamed, count_constraintsNamed]
    by_cases held : key ∈ change.old.constraintKeys
    · rw [if_pos held, List.count_eq_zero_of_not_mem (not_mem_fresh held), Nat.add_zero]
    · rw [if_neg held, Nat.zero_add, List.count_filter (by simpa using held)]
  · have none (keys : List (String × ConstraintKind)) :
        (constraintsNamed name keys).count key = 0 :=
      List.count_eq_zero_of_not_mem fun member => named (mem_constraintsNamed.mp member).2
    rw [none, none]
    split
    · rfl
    · rw [none]

theorem perm_constraintExchange_iff :
    (Action.constraintsAfterAll change.old.constraintKeys change.constraintExchange).Perm
        change.new.constraintKeys ↔ change.ConstraintsTurnOver := by
  refine ⟨constraintsTurnOver_of_perm, fun turnOver => perm_iff_constraintsNamed.mpr fun name => ?_⟩
  by_cases gone : change.GivesUp name
  · exact turnOver.perm_of_givesUp gone
  · exact turnOver.perm_of_not_givesUp gone

end TableChange

/-- The statements of an alteration carry out actions one by one, and these turn the constraints of
the old version into those of the new one exactly if none is lost where names are shared. -/
theorem Target.alterTable_exchangesConstraints_iff {target : Target} {change : TableChange}
    {statements : List Statement} (postgres : target.family = .postgres)
    (written : target.alterTable change = .ok statements) :
    List.Forall₂ (fun action statement => target.statement action = .ok statement)
        (change.actions target.capabilities target.options.comments) statements ∧
      ((Action.constraintsAfterAll change.old.constraintKeys
          (change.actions target.capabilities target.options.comments)).Perm
            change.new.constraintKeys ↔ change.ConstraintsTurnOver) := by
  refine ⟨mapM_eq_ok_iff.mp written, ?_⟩
  rw [TableChange.constraintsAfterAll_actions postgres]
  exact TableChange.perm_constraintExchange_iff

/-! ## An example -/

namespace ConstraintReplayExample

def target : Target := ⟨Capabilities.postgres, {}⟩

def number (name : String) : Column := { name, dataType := "integer" }

def check (name : Option String) (expression : String) : Constraint :=
  { name, kind := .check expression }

def pages (constraints : List Constraint) : Table :=
  { name := "pages", columns := [number "views", number "likes"], constraints }

def tightened : TableChange where
  old := pages [check "some_views" "views > 0", check "some_likes" "likes > 0"]
  new := pages [check "some_views" "views > 1", check "some_likes" "likes > 0"]

def relaxed : TableChange where
  old := pages [check none "views > 0", check none "likes > 0"]
  new := pages [check none "views > 0"]

end ConstraintReplayExample

open ConstraintReplayExample in
theorem alterTable_exchangesConstraints_pages :
    ∃ statements, target.alterTable tightened = .ok statements ∧
      tightened.ConstraintsTurnOver ∧
      (Action.constraintsAfterAll tightened.old.constraintKeys
        (tightened.actions target.capabilities target.options.comments)).Perm
          tightened.new.constraintKeys := by
  have written : ∃ statements,
      target.alterTable tightened = .ok statements := by
    decide +kernel
  rcases written with ⟨statements, done⟩
  have exchanged := (Target.alterTable_exchangesConstraints_iff rfl done).2
  have same : (Action.constraintsAfterAll tightened.old.constraintKeys
      (tightened.actions target.capabilities target.options.comments)).Perm
        tightened.new.constraintKeys := by
    decide +kernel
  exact ⟨statements, done, exchanged.mp same, same⟩

open ConstraintReplayExample in
/-- Both checks are gone, for they have one name in the database. -/
theorem alterTable_loses_namesake_pages :
    ∃ statement, target.alterTable relaxed = .ok [statement] ∧
      statement.sql = "ALTER TABLE pages DROP CONSTRAINT IF EXISTS pages_check" ∧
      relaxed.old.name = relaxed.new.name ∧ relaxed.old.columns = relaxed.new.columns ∧
      relaxed.new.constraintKeys = [("pages_check", .check "views > 0")] ∧
      Action.constraintsAfterAll relaxed.old.constraintKeys
        (relaxed.actions target.capabilities target.options.comments) = [] ∧
      ¬(Action.constraintsAfterAll relaxed.old.constraintKeys
        (relaxed.actions target.capabilities target.options.comments)).Perm
          relaxed.new.constraintKeys := by
  have written : ∃ statement, target.alterTable relaxed = .ok [statement] ∧
      statement.sql = "ALTER TABLE pages DROP CONSTRAINT IF EXISTS pages_check" := by
    decide +kernel
  rcases written with ⟨statement, done, text⟩
  exact ⟨statement, done, text, rfl, rfl, by decide +kernel, by decide +kernel, by decide +kernel⟩

end SchemaDdl
