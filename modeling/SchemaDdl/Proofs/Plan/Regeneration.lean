import SchemaDdl.Proofs.Plan.Departures
import SchemaDdl.Proofs.Plan.Indexes
import SchemaDdl.Proofs.Plan.References

/-!
# What depends on columns that are generated anew

A column whose expression is new or changed is dropped and added again, and its indexes and
constraints go with it. Nothing looks at them for that reason: the plan creates after the column
what it would have replaced anyhow, and loses the other indexes and constraints of the column, be
they unchanged or new.
-/

namespace SchemaDdl

/-! ## Dependents of a column -/

def Index.Names (index : Index) (column : String) : Prop :=
  column ∈ index.keyColumns ∨ column ∈ index.covering

def Constraint.Binds (constraint : Constraint) (column : String) : Prop :=
  match constraint.kind with
  | .unique columns => column ∈ columns
  | .foreignKey key => column ∈ key.columns
  | .primaryKey _ | .check _ | .exclusion _ => False

/-- Whether an action creates a constraint of a table under its name, alone or in the place of
another one. -/
def Action.CreatesConstraint (table : Table) (named : String × Constraint) : Action → Prop
  | .addConstraint holder constraint subject | .replaceConstraint holder _ constraint subject =>
      holder = table ∧ constraint.name = some named.1 ∧ constraint.kind = named.2.kind ∧
        subject = named.1
  | _ => False

/-- Whether actions create the indexes and constraints of a table that depend on a column. -/
structure CreatesDependents (table : Table) (column : String) (actions : List Action) : Prop where
  indexes : ∀ index ∈ table.indexes, index.Names column → .createIndex index ∈ actions
  constraints : ∀ named ∈ table.namedConstraints, named.2.Binds column →
    ∃ action ∈ actions, action.CreatesConstraint table named

/-- Whether the dependents of a column that an action adds again are created by later ones. -/
def Action.DependentsFollow (action : Action) (after : List Action) : Prop :=
  ∀ table column, action = .addColumn table column true →
    CreatesDependents table column.name after

def KeepsDependents (actions : List Action) : Prop :=
  EachBefore Action.DependentsFollow actions

/-- Whether all that depends on a column of a table is replaced: the indexes with the table itself
or with one of the tables after it, and the constraints with the table. -/
structure TableChange.ReplacesDependents (pair : TableChange) (column : String)
    (later : List TableChange) : Prop where
  indexes : ∀ index ∈ pair.new.indexes, index.Names column →
    ∃ other ∈ pair :: later, index ∈ other.new.indexes ∧ (other.replacedIndex? index).isSome = true
  constraints : ∀ named ∈ pair.new.namedConstraints, named.2.Binds column →
    named ∈ pair.addedConstraints ∧ pair.replaces named.1 = true

/-- Whether the dependents of all columns that are generated anew happen to be replaced. -/
def SchemaChange.DependentsReplaced (change : SchemaChange) : Prop :=
  EachBefore (fun pair later => ∀ column, pair.KeepsColumn column → column.regenerates = true →
    pair.ReplacesDependents column.new.name later) change.keptTables

variable {actions others : List Action} {action : Action} {table : Table} {column : String}

theorem CreatesDependents.mono (creates : CreatesDependents table column actions)
    (members : ∀ action ∈ actions, action ∈ others) : CreatesDependents table column others := by
  constructor
  · intro index member names
    exact members _ (creates.indexes index member names)
  · intro named member binds
    rcases creates.constraints named member binds with ⟨action, actionMember, created⟩
    exact ⟨action, members action actionMember, created⟩

/-! ## Changes in place of a table -/

namespace TableChange

variable {pair : TableChange} {capabilities : Capabilities} {comments : Bool}

def columnChanges (pair : TableChange) (comments : Bool) : List Action :=
  pair.altered.flatMap fun column => actionsIn .modification (pair.columnSteps comments column)

def changesAfterColumns (pair : TableChange) (capabilities : Capabilities) (comments : Bool) :
    List Action :=
  actionsIn .modification ((pair.tableActions capabilities comments).map .routed)
    ++ pair.new.indexes.flatMap (SchemaChange.replacementActions pair)

theorem modifications_eq (postgres : capabilities.family = .postgres) :
    actionsIn .modification (pair.steps capabilities comments) =
      pair.columnChanges (comments && capabilities.supports .comments)
        ++ pair.changesAfterColumns capabilities
          (comments && capabilities.supports .comments) := by
  have inPlace : pair.requiresRecreation capabilities = false := by
    simp only [requiresRecreation, postgres]
  have moved : actionsIn .modification
      ((pair.columnAdditions ++ pair.columnRemovals).map .routed) = [] := by
    rw [actionsIn_map_routed, List.filter_eq_nil_iff]
    refine List.forall_mem_append.mpr ⟨?_, ?_⟩
    · exact List.forall_mem_map.mpr fun _ _ => Bool.false_ne_true
    · exact List.forall_mem_map.mpr fun _ _ => Bool.false_ne_true
  rw [SchemaChange.modifications_of_inPlace inPlace, alterationSteps_eq postgres, actionsIn_append,
    actionsIn_append, moved, actionsIn_flatMap, List.nil_append, List.append_assoc]
  rfl

theorem addColumn_mem_columnChanges_iff {held : Column} {again : Bool} :
    .addColumn table held again ∈ pair.columnChanges comments ↔
      table = pair.new ∧ again = true ∧
        ∃ column, pair.KeepsColumn column ∧ column.regenerates = true ∧ column.new = held := by
  unfold columnChanges columnSteps
  rw [List.mem_flatMap]
  constructor
  · intro holds
    rcases holds with ⟨column, altered, member⟩
    cases regenerates : column.regenerates with
    | true =>
        rw [regenerates, if_pos rfl, columnActions_of_regenerates regenerates] at member
        rcases List.mem_pair.mp member with equal | equal
        · cases equal
        · cases equal
          exact ⟨rfl, rfl, column, (mem_altered.mp altered).1, regenerates, rfl⟩
    | false =>
        rw [regenerates, if_neg Bool.false_ne_true, actionsIn_map_routed] at member
        cases changesPart_of_mem_columnActions regenerates _ (List.mem_filter.mp member).1
  · intro holds
    rcases holds with ⟨rfl, rfl, column, keeps, regenerates, rfl⟩
    refine ⟨column, mem_altered_of_regenerates keeps regenerates, ?_⟩
    rw [if_pos regenerates, columnActions_of_regenerates regenerates]
    exact List.mem_cons_of_mem _ List.mem_cons_self

theorem operation_of_mem_changesAfterColumns :
    ∀ action ∈ pair.changesAfterColumns capabilities comments, action.operation ≠ .addColumn := by
  refine List.forall_mem_append.mpr ⟨fun action member adds => ?_, ?_⟩
  · rw [actionsIn_map_routed] at member
    have part := changesPart_of_mem_tableActions action (List.mem_filter.mp member).1
    rw [adds] at part
    cases part
  · refine List.forall_mem_flatMap.mpr fun index _ action member => ?_
    rcases List.mem_flatMap.mp member with ⟨held, _, member⟩
    rcases List.mem_pair.mp member with rfl | rfl <;> nofun

theorem addColumn_mem_modifications_iff (postgres : capabilities.family = .postgres) {held : Column}
    {again : Bool} :
    .addColumn table held again ∈ actionsIn .modification (pair.steps capabilities comments) ↔
      table = pair.new ∧ again = true ∧
        ∃ column, pair.KeepsColumn column ∧ column.regenerates = true ∧ column.new = held := by
  have last : .addColumn table held again ∉ pair.changesAfterColumns capabilities
      (comments && capabilities.supports .comments) :=
    fun member => operation_of_mem_changesAfterColumns _ member rfl
  rw [modifications_eq postgres, List.mem_append, or_iff_left last]
  exact addColumn_mem_columnChanges_iff

theorem createIndex_mem_modifications_iff (inPlace : pair.requiresRecreation capabilities = false)
    {index : Index} :
    .createIndex index ∈ actionsIn .modification (pair.steps capabilities comments) ↔
      index ∈ pair.new.indexes ∧ (pair.replacedIndex? index).isSome = true := by
  have altered : .createIndex index ∉
      actionsIn .modification (pair.alterationSteps capabilities comments) := by
    intro member
    cases SchemaChange.quiet_of_mem_actionsIn_alterationSteps inPlace _ member
  rw [SchemaChange.modifications_of_inPlace inPlace, List.mem_append, or_iff_right altered,
    List.mem_flatMap]
  constructor
  · intro holds
    rcases holds with ⟨other, member, created⟩
    rcases List.mem_flatMap.mp created with ⟨held, replaced, created⟩
    rcases List.mem_pair.mp created with equal | equal
    · cases equal
    · cases equal
      exact ⟨member, Option.isSome_iff_exists.mpr ⟨held, Option.mem_toList.mp replaced⟩⟩
  · intro holds
    rcases holds with ⟨member, replaced⟩
    rcases Option.isSome_iff_exists.mp replaced with ⟨held, replaced⟩
    refine ⟨index, member, List.mem_flatMap.mpr ⟨held, Option.mem_toList.mpr replaced, ?_⟩⟩
    exact List.mem_cons_of_mem _ List.mem_cons_self

end TableChange

theorem Action.changesConstraint_of_creates {named : String × Constraint}
    (creates : action.CreatesConstraint table named) : action.changesConstraint = true := by
  cases action with
  | addConstraint => rfl
  | replaceConstraint => rfl
  | _ => cases creates

theorem ColumnConstraint.name_ne {constraint : ColumnConstraint} {held : Column} :
    constraint.name table held ≠ held.name := by
  intro same
  have lengths := congrArg (fun text => text.toList.length) same
  simp only [name, toString, String.toList_append, List.length_append] at lengths
  have separated : "_".toList.length = 1 := rfl
  omega

namespace TableChange

variable {pair : TableChange} {capabilities : Capabilities} {comments : Bool}
  {named : String × Constraint}

theorem not_createsConstraint_of_mem_actions {column : ColumnChange}
    {constraint : ColumnConstraint}
    (member : action ∈ constraint.actions pair.old pair.new column) :
    ¬action.CreatesConstraint table named := by
  intro creates
  rcases (ColumnConstraint.mem_actions_iff.mp member).2 with
    ⟨_, _, rfl⟩ | ⟨_, _, _, rfl⟩ | ⟨_, _, _, rfl⟩
  · cases creates
  · rcases creates with ⟨_, name, _, subject⟩
    exact constraint.name_ne ((Option.some.inj name).trans subject.symm)
  · rcases creates with ⟨_, name, _, subject⟩
    exact constraint.name_ne ((Option.some.inj name).trans subject.symm)

theorem exists_createsConstraint_iff (postgres : capabilities.family = .postgres)
    (declared : named ∈ pair.new.namedConstraints) :
    (∃ action ∈ actionsIn .modification (pair.steps capabilities comments),
        action.CreatesConstraint pair.new named) ↔
      named ∈ pair.addedConstraints ∧ pair.replaces named.1 = true := by
  constructor
  · intro holds
    rcases holds with ⟨action, member, creates⟩
    have changes := Action.changesConstraint_of_creates creates
    rcases (mem_actionsIn_steps_iff postgres changes).mp member with ⟨member, inPlace⟩
    rcases mem_constraintActions.mp member with ⟨_, _, _, _, member⟩ | member | member
    · exact absurd creates (not_createsConstraint_of_mem_actions member)
    · rcases List.mem_map.mp member with ⟨_, _, rfl⟩
      cases creates
    · rcases List.mem_map.mp member with ⟨⟨name, constraint⟩, gains, rfl⟩
      dsimp only at creates inPlace
      split at creates
      · rcases creates with ⟨_, _, kind, rfl⟩
        have gained : (!pair.old.namedConstraints.any fun other =>
            other.1 == named.1 && other.2.kind == constraint.kind) = true :=
          (List.mem_filter.mp gains).2
        rw [kind] at gained
        exact ⟨List.mem_filter.mpr ⟨declared, gained⟩, ‹_›⟩
      · rw [if_neg ‹_›] at inPlace
        cases inPlace
  · intro holds
    rcases holds with ⟨gains, replaces⟩
    refine ⟨_, (mem_actionsIn_steps_iff postgres rfl).mpr ⟨mem_constraintActions.mpr
      (.inr (.inr (List.mem_map.mpr ⟨named, gains, if_pos replaces⟩))), rfl⟩, ?_⟩
    exact ⟨rfl, rfl, rfl, rfl⟩

theorem new_of_createsConstraint (postgres : capabilities.family = .postgres)
    (member : action ∈ actionsIn .modification (pair.steps capabilities comments))
    (creates : action.CreatesConstraint table named) : table = pair.new := by
  have changes := Action.changesConstraint_of_creates creates
  rcases of_mem_constraintActions ((mem_actionsIn_steps_iff postgres changes).mp member).1 with
    ⟨_, _, rfl⟩ | ⟨_, _, rfl⟩ | ⟨_, _, _, rfl, _⟩
  · exact creates.1.symm
  · cases creates
  · exact creates.1.symm

theorem not_creates_of_mem_columnChanges (member : action ∈ pair.columnChanges comments) :
    (∀ index, action ≠ .createIndex index) ∧
      ∀ table named, ¬action.CreatesConstraint table named := by
  rcases List.mem_flatMap.mp member with ⟨column, _, member⟩
  have ofColumn : action ∈ pair.columnActions comments column := by
    have stepMember := mem_actionsIn.mp member
    unfold columnSteps at stepMember
    split at stepMember
    · rcases List.mem_map.mp stepMember with ⟨_, actionMember, equal⟩
      exact (PlanStep.mk.inj equal).2 ▸ actionMember
    · rcases List.mem_map.mp stepMember with ⟨_, actionMember, equal⟩
      exact (PlanStep.mk.inj equal).2 ▸ actionMember
  cases regenerates : column.regenerates with
  | true =>
      rw [columnActions_of_regenerates regenerates] at ofColumn
      rcases List.mem_pair.mp ofColumn with rfl | rfl
      · exact ⟨fun _ => Action.noConfusion, fun _ _ => id⟩
      · exact ⟨fun _ => Action.noConfusion, fun _ _ => id⟩
  | false =>
      constructor
      · rintro index rfl
        cases changesPart_of_mem_columnActions regenerates _ ofColumn
      · intro table named creates
        have filtered := List.mem_filter.mpr
          ⟨ofColumn, Action.changesConstraint_of_creates creates⟩
        rw [filter_changesConstraint_columnActions, regenerates, if_neg Bool.false_ne_true]
          at filtered
        rcases List.mem_flatMap.mp filtered with ⟨constraint, _, carried⟩
        exact not_createsConstraint_of_mem_actions carried creates

theorem createsDependents_after_iff (postgres : capabilities.family = .postgres)
    {before after : List Action} {again : Bool} {held : Column}
    (split : actionsIn .modification (pair.steps capabilities comments) =
      before ++ .addColumn table held again :: after) :
    CreatesDependents pair.new column (after ++ others) ↔
      CreatesDependents pair.new column
        (actionsIn .modification (pair.steps capabilities comments) ++ others) := by
  constructor
  · intro creates
    refine creates.mono fun action member => ?_
    rw [split, List.append_assoc]
    exact List.mem_append_right _ (List.mem_cons_of_mem _ member)
  · intro creates
    rw [modifications_eq postgres] at creates split
    have last : .addColumn table held again ∉ pair.changesAfterColumns capabilities
        (comments && capabilities.supports .comments) :=
      fun member => operation_of_mem_changesAfterColumns _ member rfl
    rcases exists_append_of_not_mem split last with ⟨middle, rfl⟩
    have later : ∀ action,
        action ∉ pair.columnChanges (comments && capabilities.supports .comments) →
        action ∈ pair.columnChanges (comments && capabilities.supports .comments)
          ++ pair.changesAfterColumns capabilities (comments && capabilities.supports .comments)
          ++ others →
        action ∈ middle ++ pair.changesAfterColumns capabilities
          (comments && capabilities.supports .comments) ++ others := by
      intro action elsewhere member
      simp only [List.mem_append, elsewhere, false_or] at member ⊢
      exact member.imp_left .inr
    constructor
    · intro index member names
      refine later _ (fun early => ?_) (creates.indexes index member names)
      exact (not_creates_of_mem_columnChanges early).1 index rfl
    · intro named member binds
      rcases creates.constraints named member binds with ⟨action, actionMember, created⟩
      refine ⟨action, later action (fun early => ?_) actionMember, created⟩
      exact (not_creates_of_mem_columnChanges early).2 _ named created

end TableChange

/-! ## A whole plan -/

namespace SchemaChange

variable {change : SchemaChange} {capabilities : Capabilities} {comments : Bool}
  {pair : TableChange} {later : List TableChange}

/-- The changes in place of tables, and what comes after them, create the dependents of a column
exactly when the changes replace them. -/
theorem createsDependents_iff (postgres : capabilities.family = .postgres)
    (kept : ∀ other ∈ pair :: later, other ∈ change.keptTables)
    (quiet : ∀ action ∈ others,
      action.operation ∉ [.createIndex, .addConstraint, .replaceConstraint]) :
    CreatesDependents pair.new column
        ((pair :: later).flatMap
          (fun other => actionsIn .modification (other.steps capabilities comments)) ++ others) ↔
      pair.ReplacesDependents column later := by
  have inPlace : ∀ other : TableChange, other.requiresRecreation capabilities = false :=
    fun other => by simp only [TableChange.requiresRecreation, postgres]
  have indexed : ∀ index, .createIndex index ∈ (pair :: later).flatMap
      (fun other => actionsIn .modification (other.steps capabilities comments)) ++ others ↔
        ∃ other ∈ pair :: later,
          index ∈ other.new.indexes ∧ (other.replacedIndex? index).isSome = true := by
    intro index
    have elsewhere : .createIndex index ∉ others :=
      fun member => quiet _ member List.mem_cons_self
    rw [List.mem_append, or_iff_left elsewhere, List.mem_flatMap]
    exact exists_congr fun other => and_congr_right fun _ =>
      TableChange.createIndex_mem_modifications_iff (inPlace other)
  have constrained : ∀ named ∈ pair.new.namedConstraints,
      (∃ action ∈ (pair :: later).flatMap
        (fun other => actionsIn .modification (other.steps capabilities comments)) ++ others,
          action.CreatesConstraint pair.new named) ↔
        named ∈ pair.addedConstraints ∧ pair.replaces named.1 = true := by
    intro named declared
    have own : (∃ action ∈ actionsIn .modification (pair.steps capabilities comments),
        action.CreatesConstraint pair.new named) ↔
          named ∈ pair.addedConstraints ∧ pair.replaces named.1 = true :=
      TableChange.exists_createsConstraint_iff postgres declared
    rw [← own]
    constructor
    · intro holds
      rcases holds with ⟨action, member, creates⟩
      rcases List.mem_append.mp member with member | member
      · rcases List.mem_flatMap.mp member with ⟨other, otherMember, member⟩
        have same : pair = other := eq_of_mem_keptTables (kept pair List.mem_cons_self)
          (kept other otherMember) (TableChange.new_of_createsConstraint postgres member creates)
        exact ⟨action, same ▸ member, creates⟩
      · have other := quiet action member
        cases action with
        | addConstraint => simp [Action.operation] at other
        | replaceConstraint => simp [Action.operation] at other
        | _ => cases creates
    · intro holds
      rcases holds with ⟨action, member, creates⟩
      refine ⟨action, List.mem_append_left _ (List.mem_flatMap.mpr ?_), creates⟩
      exact ⟨pair, List.mem_cons_self, member⟩
  constructor
  · intro creates
    exact ⟨fun index member names => (indexed index).mp (creates.indexes index member names),
      fun named declared binds =>
        (constrained named declared).mp (creates.constraints named declared binds)⟩
  · intro replaces
    exact ⟨fun index member names => (indexed index).mpr (replaces.indexes index member names),
      fun named declared binds =>
        (constrained named declared).mpr (replaces.constraints named declared binds)⟩

def actionsAfterChanges (change : SchemaChange) (capabilities : Capabilities) (comments : Bool) :
    List Action :=
  change.trailingSteps.map (·.action) ++ change.keptActions capabilities comments .removal
    ++ change.dropOrder.map fun table => Action.dropTable table.qualifiedName

theorem quiet_of_mem_actionsAfterChanges :
    ∀ action ∈ change.actionsAfterChanges capabilities comments,
      action.operation ∉ [.addColumn, .createIndex, .addConstraint, .replaceConstraint] := by
  refine List.forall_mem_append.mpr ⟨List.forall_mem_append.mpr ⟨?_, ?_⟩, ?_⟩
  · refine List.forall_mem_map.mpr fun step member => ?_
    have trails := (operation_of_mem_trailingSteps member).1
    revert trails
    cases step.action.operation <;> decide
  · intro action member
    have removed : action ∈ actionsIn .removal (change.steps capabilities comments) := by
      rw [actionsIn_steps]
      exact member
    have own := operation_phase_of_mem_actionsIn (by decide) action removed
    revert own
    cases action.operation <;> decide
  · exact List.forall_mem_map.mpr fun table _ => by simp [Action.operation]

theorem again_of_mem_actionsBeforeChanges (postgres : capabilities.family = .postgres)
    {again : Bool} {held : Column}
    (member : .addColumn table held again ∈ change.actionsBeforeChanges capabilities comments) :
    again = false := by
  unfold actionsBeforeChanges at member
  simp only [List.mem_append] at member
  rcases member with (created | added) | completes
  · cases operation_phase_of_mem_actionsIn (by decide) _ created
  · rw [actionsIn_steps, keptActions] at added
    rcases List.mem_append.mp added with indexed | added
    · rcases List.mem_map.mp indexed with ⟨_, _, equal⟩
      cases equal
    · rcases List.mem_flatMap.mp added with ⟨pair, _, added⟩
      rw [TableChange.additions_steps postgres] at added
      rcases List.mem_append.mp added with added | part
      · rcases List.mem_map.mp added with ⟨_, _, equal⟩
        exact (Action.addColumn.inj equal).2.2.symm
      · exact absurd rfl (TableChange.operation_of_mem_partAdditions part)
  · rcases List.mem_flatMap.mp completes with ⟨created, _, completes⟩
    cases phase_of_mem_completion completes

theorem keepsDependents_iff (postgres : capabilities.family = .postgres) :
    KeepsDependents (orderedActions (change.steps capabilities comments)) ↔
      change.DependentsReplaced := by
  have split : orderedActions (change.steps capabilities comments) =
      change.actionsBeforeChanges capabilities comments
        ++ (change.keptActions capabilities comments .modification
          ++ change.actionsAfterChanges capabilities comments) := by
    rw [orderedActions_eq_changes, actionsAfterChanges]
    simp only [List.append_assoc]
  have front : EachBefore (fun action after => action.DependentsFollow (after
      ++ (change.keptActions capabilities comments .modification
        ++ change.actionsAfterChanges capabilities comments)))
      (change.actionsBeforeChanges capabilities comments) := by
    refine eachBefore_of_forall fun action member after table column adds => ?_
    cases again_of_mem_actionsBeforeChanges postgres (adds ▸ member)
  have back : EachBefore Action.DependentsFollow
      (change.actionsAfterChanges capabilities comments) := by
    refine eachBefore_of_forall fun action member after table column adds => ?_
    exact absurd (adds ▸ List.mem_cons_self) (quiet_of_mem_actionsAfterChanges action member)
  rw [KeepsDependents, split, eachBefore_append, and_iff_right front, eachBefore_append,
    and_iff_left back, keptActions, eachBefore_flatMap]
  refine eachBefore_congr fun before pair later inOrder => ?_
  have kept : ∀ other ∈ pair :: later, other ∈ change.keptTables :=
    fun other member => inOrder ▸ List.mem_append_right _ member
  have quiet : ∀ action ∈ change.actionsAfterChanges capabilities comments,
      action.operation ∉ [.createIndex, .addConstraint, .replaceConstraint] :=
    fun action member creates =>
      quiet_of_mem_actionsAfterChanges action member (List.mem_cons_of_mem _ creates)
  refine Iff.trans (b := ∀ action ∈ actionsIn .modification (pair.steps capabilities comments),
    action.DependentsFollow ((pair :: later).flatMap
      (fun other => actionsIn .modification (other.steps capabilities comments))
        ++ change.actionsAfterChanges capabilities comments)) ?_ ?_
  · refine eachBefore_iff_forall fun front action after split => ?_
    refine forall₃_congr fun table column adds => ?_
    cases adds
    have member : .addColumn table column true ∈
        actionsIn .modification (pair.steps capabilities comments) :=
      split ▸ List.mem_append_right _ List.mem_cons_self
    cases ((TableChange.addColumn_mem_modifications_iff postgres).mp member).1
    rw [List.flatMap_cons, List.append_assoc, List.append_assoc]
    exact TableChange.createsDependents_after_iff postgres split
  · constructor
    · intro each column keeps regenerates
      refine (createsDependents_iff postgres kept quiet).mp (each _ ?_ _ column.new rfl)
      exact (TableChange.addColumn_mem_modifications_iff postgres).mpr
        ⟨rfl, rfl, column, keeps, regenerates, rfl⟩
    · intro replaced action member table held adds
      cases adds
      rcases (TableChange.addColumn_mem_modifications_iff postgres).mp member with
        ⟨rfl, _, column, keeps, regenerates, rfl⟩
      exact (createsDependents_iff postgres kept quiet).mpr (replaced column keeps regenerates)

end SchemaChange

namespace Target

variable {target : Target} {old new : Schema} {plan : MigrationPlan}

/-- A plan of the Postgres family creates the indexes and constraints of the columns that it
generates anew again exactly when all of them are replaced. -/
theorem plan_keepsDependents_iff (postgres : target.family = .postgres)
    (planned : target.plan old new = .ok plan) :
    target.statements (target.orderedActions old new) = .ok plan.statements ∧
      (KeepsDependents (target.orderedActions old new) ↔
        (target.schemaChange old new).DependentsReplaced) :=
  ⟨(plan_eq_ok_iff.mp planned).1, SchemaChange.keepsDependents_iff postgres⟩

end Target

/-! ## An example -/

namespace RegenerationExample

def title : Column := { name := "title", dataType := "text" }

def slug (expression : String) : Column :=
  { name := "slug", dataType := "text", generated := some { expression } }

def bySlug (unique : Bool) : Index :=
  { name := "by_slug", table := .plain "pages", keys := [{ target := .column "slug" }], unique }

def oneSlug (columns : List String) : Constraint :=
  { name := some "one_slug", kind := .unique columns }

def pages (expression : String) (index : Index) (constraint : Constraint) : Table where
  name := "pages"
  columns := [title, slug expression]
  constraints := [constraint]
  indexes := [index]

def lower : Table := pages "lower(title)" (bySlug false) (oneSlug ["slug"])

def upper : Table := pages "upper(title)" (bySlug true) (oneSlug ["slug", "title"])

def onlyUpper : Table := pages "upper(title)" (bySlug false) (oneSlug ["slug"])

def old : Schema := { tables := [lower] }

def replaced : Schema := { tables := [upper] }

def unchanged : Schema := { tables := [onlyUpper] }

end RegenerationExample

open RegenerationExample in
/-- An index and a constraint that change are created after the column that they are on. -/
theorem plan_keepsDependents_pages :
    Target.family ⟨Capabilities.postgres, {}⟩ = .postgres ∧
      ∃ plan, Target.plan ⟨Capabilities.postgres, {}⟩ old replaced = .ok plan ∧
        plan.statements.map (·.operation) =
          [.dropColumn, .addColumn, .replaceConstraint, .dropIndex, .createIndex] ∧
        KeepsDependents (Target.orderedActions ⟨Capabilities.postgres, {}⟩ old replaced) := by
  have postgres : Target.family ⟨Capabilities.postgres, {}⟩ = .postgres := rfl
  have succeeds : ∃ plan, Target.plan ⟨Capabilities.postgres, {}⟩ old replaced = .ok plan ∧
      plan.statements.map (·.operation) =
        [.dropColumn, .addColumn, .replaceConstraint, .dropIndex, .createIndex] := by
    decide +kernel
  rcases succeeds with ⟨plan, planned, operations⟩
  refine ⟨postgres, plan, planned, operations,
    (Target.plan_keepsDependents_iff postgres planned).2.mpr ?_⟩
  have kept : (Target.schemaChange ⟨Capabilities.postgres, {}⟩ old replaced).keptTables =
    [⟨lower, upper⟩] := rfl
  rw [SchemaChange.DependentsReplaced, kept]
  refine eachBefore_of_forall (List.forall_mem_singleton.mpr fun later column _ _ => ⟨?_, ?_⟩)
  · refine List.forall_mem_singleton.mpr fun _ => ⟨⟨lower, upper⟩, List.mem_cons_self, ?_⟩
    exact ⟨List.mem_cons_self, by decide⟩
  · exact List.forall_mem_singleton.mpr fun _ => ⟨by decide, by decide⟩

open RegenerationExample in
/-- An index and a constraint that stay the same go with the column and are not created again. -/
theorem plan_loses_dependents_pages :
    ∃ plan, Target.plan ⟨Capabilities.postgres, {}⟩ old unchanged = .ok plan ∧
      plan.statements.map (·.operation) = [.dropColumn, .addColumn] ∧
      ¬KeepsDependents (Target.orderedActions ⟨Capabilities.postgres, {}⟩ old unchanged) := by
  refine exists_ok_and_of (by decide +kernel) fun keeps => ?_
  have actions : Target.orderedActions ⟨Capabilities.postgres, {}⟩ old unchanged =
      [.dropColumn (.plain "pages") "slug"]
        ++ .addColumn onlyUpper (slug "upper(title)") true :: [] := rfl
  have dependents := keeps _ _ _ actions onlyUpper (slug "upper(title)") rfl
  have names : (bySlug false).Names "slug" := .inl List.mem_cons_self
  cases dependents.indexes (bySlug false) List.mem_cons_self names

end SchemaDdl
