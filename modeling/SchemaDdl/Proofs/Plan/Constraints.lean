import SchemaDdl.Proofs.Plan.Replacement

/-!
# Constraints of a table

On the Postgres family the constraints of a table of both versions are added, dropped and replaced
by statements of their own. Constraints of a column are compared with those of the old column, and
the others, apart from the primary key, with the others of the old table.
-/

namespace SchemaDdl

/-! ## Actions for constraints -/

def Action.changesConstraint : Action → Bool
  | .addConstraint .. | .dropConstraint .. | .replaceConstraint .. => true
  | _ => false

namespace ColumnConstraint

def all : List ColumnConstraint :=
  [.unique, .foreignKey, .check]

theorem mem_all (constraint : ColumnConstraint) : constraint ∈ all := by
  cases constraint <;> decide

variable {old new : Table} {pair : ColumnChange} {constraint : ColumnConstraint} {action : Action}

theorem mem_actions_iff :
    action ∈ constraint.actions old new pair ↔ constraint.changed pair = true ∧
      ((constraint.kind? pair.old).isSome = true ∧ constraint.kind? pair.new = none ∧
          action = .dropConstraint new.qualifiedName (constraint.name old pair.old) pair.new.name ∨
        constraint.kind? pair.old = none ∧ (∃ kind, constraint.kind? pair.new = some kind ∧
          action = .addConstraint new ⟨some (constraint.name new pair.new), kind⟩ pair.new.name) ∨
        (constraint.kind? pair.old).isSome = true ∧ ∃ kind, constraint.kind? pair.new = some kind ∧
          action = .replaceConstraint new (constraint.name old pair.old)
            ⟨some (constraint.name new pair.new), kind⟩ pair.new.name) := by
  unfold actions
  cases constraint.changed pair with
  | false => simp
  | true => cases constraint.kind? pair.old <;> cases constraint.kind? pair.new <;> simp

theorem changesConstraint_of_mem_actions (member : action ∈ constraint.actions old new pair) :
    action.changesConstraint = true := by
  rcases (mem_actions_iff.mp member).2 with
    ⟨_, _, rfl⟩ | ⟨_, _, _, rfl⟩ | ⟨_, _, _, rfl⟩ <;> rfl

theorem isSome_kind? {column : Column} :
    (constraint.kind? column).isSome =
      match constraint with
      | .unique => column.unique
      | .foreignKey => column.references.isSome
      | .check => column.check.isSome := by
  cases constraint with
  | unique => cases unique : column.unique <;> simp [kind?, unique]
  | foreignKey => exact Option.isSome_map
  | check => exact Option.isSome_map

theorem changed_of_isSome_ne
    (different : (constraint.kind? pair.old).isSome ≠ (constraint.kind? pair.new).isSome) :
    constraint.changed pair = true := by
  rw [isSome_kind?, isSome_kind?] at different
  cases constraint with
  | unique => exact bne_iff_ne.mpr different
  | foreignKey => exact bne_iff_ne.mpr fun same => different (congrArg Option.isSome same)
  | check => exact bne_iff_ne.mpr fun same => different (congrArg Option.isSome same)

theorem isChange_of_changed (changed : constraint.changed pair = true) : pair.isChange = true := by
  cases constraint <;>
    simp only [ColumnConstraint.changed] at changed <;>
    simp [ColumnChange.isChange, ColumnChange.isStructural, changed]

end ColumnConstraint

namespace TableChange

variable {change : TableChange} {capabilities : Capabilities} {comments : Bool} {action : Action}
  {name : String}

def constraintActions (change : TableChange) : List Action :=
  (change.altered.flatMap fun column => if column.regenerates then [] else
      ColumnConstraint.all.flatMap (ColumnConstraint.actions change.old change.new column))
    ++ change.removedConstraintActions ++ change.addedConstraintActions

theorem filter_changesConstraint_actionIf {condition : Bool}
    (other : action.changesConstraint = false) :
    (actionIf condition action).filter (·.changesConstraint) = [] := by
  cases condition <;> simp [actionIf, other]

theorem filter_changesConstraint_identityActions {column : ColumnChange} :
    (change.identityActions column).filter (·.changesConstraint) = [] := by
  refine List.filter_eq_nil_iff.mpr fun action member => ?_
  have operation := operation_of_mem_identityActions action member
  cases action <;> first | exact Bool.false_ne_true | cases operation

theorem filter_changesConstraint_columnActions {column : ColumnChange} :
    (change.columnActions comments column).filter (·.changesConstraint) =
      if column.regenerates then [] else
        ColumnConstraint.all.flatMap (ColumnConstraint.actions change.old change.new column) := by
  cases regenerates : column.regenerates with
  | true =>
      rw [columnActions_of_regenerates regenerates]
      rfl
  | false =>
      have constraints : ([ColumnConstraint.unique, .foreignKey, .check].flatMap
          (ColumnConstraint.actions change.old change.new column)).filter (·.changesConstraint) =
            ColumnConstraint.all.flatMap
              (ColumnConstraint.actions change.old change.new column) := by
        refine List.filter_eq_self.mpr (List.forall_mem_flatMap.mpr fun constraint _ => ?_)
        exact fun _ => ColumnConstraint.changesConstraint_of_mem_actions
      unfold columnActions
      rw [regenerates]
      simp only [Bool.false_eq_true, if_false, List.filter_append, constraints,
        filter_changesConstraint_identityActions]
      repeat rw [filter_changesConstraint_actionIf rfl]
      simp only [List.nil_append, List.append_nil]

theorem filter_changesConstraint_tableActions :
    (change.tableActions capabilities comments).filter (·.changesConstraint) =
      change.removedConstraintActions ++ change.addedConstraintActions := by
  have removed : change.removedConstraintActions.filter (·.changesConstraint) =
      change.removedConstraintActions :=
    List.filter_eq_self.mpr (List.forall_mem_map.mpr fun _ _ => rfl)
  have added : change.addedConstraintActions.filter (·.changesConstraint) =
      change.addedConstraintActions := by
    refine List.filter_eq_self.mpr (List.forall_mem_map.mpr fun named _ => ?_)
    dsimp only
    split <;> rfl
  have settings : ∀ settings : List TableSetting,
      (settings.map (Action.setTable change.new.qualifiedName)).filter (·.changesConstraint) = [] :=
    fun settings => List.filter_eq_nil_iff.mpr (List.forall_mem_map.mpr fun _ _ => nofun)
  have options : (if change.optionsChanged then change.refusals
      ++ (change.optionSettings capabilities).map (Action.setTable change.new.qualifiedName)
    else []).filter (·.changesConstraint) = [] := by
    split
    · simp only [refusals, List.filter_append, settings]
      repeat rw [filter_changesConstraint_actionIf rfl]
      rfl
    · rfl
  simp only [tableActions, List.filter_append, removed, added, settings, options]
  repeat rw [filter_changesConstraint_actionIf rfl]
  simp only [List.append_nil]

theorem filter_changesConstraint_map_routed {actions : List Action} :
    (actions.map PlanStep.routed).filter (·.action.changesConstraint) =
      (actions.filter (·.changesConstraint)).map .routed :=
  List.filter_map

theorem filter_changesConstraint_columnSteps {column : ColumnChange} :
    (change.columnSteps comments column).filter (·.action.changesConstraint) =
      ((change.columnActions comments column).filter (·.changesConstraint)).map .routed := by
  unfold columnSteps
  split
  · rename_i regenerates
    rw [columnActions_of_regenerates regenerates]
    rfl
  · exact filter_changesConstraint_map_routed

theorem filter_changesConstraint_steps (postgres : capabilities.family = .postgres) :
    (change.steps capabilities comments).filter (·.action.changesConstraint) =
      change.constraintActions.map .routed := by
  have indexes : ∀ step, step ∈ change.indexRemovals ∨ step ∈ change.indexAdditions →
      ¬step.action.changesConstraint = true := by
    intro step member
    rcases of_mem_indexSteps member with ⟨index, same | same⟩ <;> rw [same] <;> nofun
  have removals : change.indexRemovals.filter (·.action.changesConstraint) = [] :=
    List.filter_eq_nil_iff.mpr fun step member => indexes step (.inl member)
  have additions : change.indexAdditions.filter (·.action.changesConstraint) = [] :=
    List.filter_eq_nil_iff.mpr fun step member => indexes step (.inr member)
  have columns : (change.columnAdditions ++ change.columnRemovals).filter (·.changesConstraint) =
      [] := by
    refine List.filter_eq_nil_iff.mpr (List.forall_mem_append.mpr ⟨?_, ?_⟩)
    · exact List.forall_mem_map.mpr fun _ _ => nofun
    · exact List.forall_mem_map.mpr fun _ _ => nofun
  rw [steps_of_postgres postgres, alterationSteps_eq postgres]
  simp only [List.filter_append, removals, additions, filter_changesConstraint_map_routed, columns,
    List.filter_flatMap, filter_changesConstraint_columnSteps,
    filter_changesConstraint_columnActions, filter_changesConstraint_tableActions]
  simp only [constraintActions, List.map_append, List.map_flatMap, List.map_nil, List.nil_append,
    List.append_nil, List.append_assoc]

theorem mem_actionsIn_steps_iff (postgres : capabilities.family = .postgres)
    (changes : action.changesConstraint = true) {phase : Phase} :
    action ∈ actionsIn phase (change.steps capabilities comments) ↔
      action ∈ change.constraintActions ∧ action.operation.phase = phase := by
  have filtered : (⟨phase, action⟩ : PlanStep) ∈ change.steps capabilities comments ↔
      (⟨phase, action⟩ : PlanStep) ∈ change.constraintActions.map .routed := by
    rw [← @filter_changesConstraint_steps change capabilities comments postgres, List.mem_filter,
      and_iff_left changes]
  rw [mem_actionsIn, filtered, List.mem_map]
  constructor
  · intro holds
    rcases holds with ⟨_, member, equal⟩
    cases equal
    exact ⟨member, rfl⟩
  · intro holds
    rcases holds with ⟨member, rfl⟩
    exact ⟨action, member, rfl⟩

/-! ## Constraints by their names -/

inductive AddsConstraint (change : TableChange) (name : String) : Prop
  | ofColumn {column : ColumnChange} {constraint : ColumnConstraint}
      (keeps : change.KeepsColumn column) (inPlace : column.regenerates = false)
      (free : constraint.kind? column.old = none)
      (carries : (constraint.kind? column.new).isSome = true)
      (named : constraint.name change.new column.new = name)
  | ofTable {constraint : Constraint} (gains : (name, constraint) ∈ change.addedConstraints)
      (free : change.replaces name = false)

inductive ReplacesConstraint (change : TableChange) (name : String) : Prop
  | ofColumn {column : ColumnChange} {constraint : ColumnConstraint}
      (keeps : change.KeepsColumn column) (inPlace : column.regenerates = false)
      (changed : constraint.changed column = true)
      (carried : (constraint.kind? column.old).isSome = true)
      (carries : (constraint.kind? column.new).isSome = true)
      (named : constraint.name change.old column.old = name)
  | ofTable (replaces : change.replaces name = true)

inductive DropsConstraint (change : TableChange) (name : String) : Prop
  | ofColumn {column : ColumnChange} {constraint : ColumnConstraint}
      (keeps : change.KeepsColumn column) (inPlace : column.regenerates = false)
      (carried : (constraint.kind? column.old).isSome = true)
      (lost : constraint.kind? column.new = none)
      (named : constraint.name change.old column.old = name)
  | ofTable {constraint : Constraint} (loses : (name, constraint) ∈ change.removedConstraints)
      (free : change.replaces name = false)

theorem mem_constraintActions :
    action ∈ change.constraintActions ↔
      (∃ column, change.KeepsColumn column ∧ column.regenerates = false ∧
        ∃ constraint : ColumnConstraint,
          action ∈ constraint.actions change.old change.new column) ∨
      action ∈ change.removedConstraintActions ∨ action ∈ change.addedConstraintActions := by
  rw [constraintActions, List.mem_append, List.mem_append, or_assoc]
  refine or_congr_left ?_
  rw [List.mem_flatMap]
  constructor
  · intro holds
    rcases holds with ⟨column, altered, member⟩
    split at member
    · cases member
    · rcases List.mem_flatMap.mp member with ⟨constraint, _, member⟩
      exact ⟨column, (mem_altered.mp altered).1, Bool.eq_false_iff.mpr ‹_›, constraint, member⟩
  · intro holds
    rcases holds with ⟨column, keeps, inPlace, constraint, member⟩
    have changed := constraint.isChange_of_changed (ColumnConstraint.mem_actions_iff.mp member).1
    refine ⟨column, mem_altered.mpr ⟨keeps, changed⟩, ?_⟩
    rw [inPlace, if_neg nofun]
    exact List.mem_flatMap.mpr ⟨constraint, constraint.mem_all, member⟩

theorem KeepsColumn.old_mem {column : ColumnChange} (keeps : change.KeepsColumn column) :
    column.old ∈ change.old.columns :=
  List.mem_of_find?_eq_some keeps.2

theorem KeepsColumn.old_name {column : ColumnChange} (keeps : change.KeepsColumn column) :
    column.old.name = column.new.name := by
  have same := List.find?_some keeps.2
  exact beq_iff_eq.mp same

theorem KeepsColumn.name_eq {column : ColumnChange} {constraint : ColumnConstraint}
    (keeps : change.KeepsColumn column) (tables : change.old.name = change.new.name) :
    constraint.name change.old column.old = constraint.name change.new column.new := by
  simp only [ColumnConstraint.name, tables, keeps.old_name]

theorem of_mem_constraintActions (member : action ∈ change.constraintActions) :
    (∃ constraint subject, action = .addConstraint change.new constraint subject) ∨
      (∃ name subject, action = .dropConstraint change.new.qualifiedName name subject) ∨
      ∃ name constraint subject, action = .replaceConstraint change.new name constraint subject ∧
        (change.old.name = change.new.name →
          constraint.effectiveName change.new.name = name) := by
  rcases mem_constraintActions.mp member with
    ⟨column, keeps, _, constraint, member⟩ | member | member
  · rcases (ColumnConstraint.mem_actions_iff.mp member).2 with
      ⟨_, _, rfl⟩ | ⟨_, _, _, rfl⟩ | ⟨_, _, _, rfl⟩
    · exact .inr (.inl ⟨_, _, rfl⟩)
    · exact .inl ⟨_, _, rfl⟩
    · exact .inr (.inr ⟨_, _, _, rfl, fun tables => (keeps.name_eq tables).symm⟩)
  · rcases List.mem_map.mp member with ⟨_, _, rfl⟩
    exact .inr (.inl ⟨_, _, rfl⟩)
  · rcases List.mem_map.mp member with ⟨_, _, rfl⟩
    dsimp only
    split
    · exact .inr (.inr ⟨_, _, _, rfl, fun _ => rfl⟩)
    · exact .inl ⟨_, _, rfl⟩

theorem exists_dropConstraint_iff :
    (∃ subject, .dropConstraint change.new.qualifiedName name subject ∈ change.constraintActions) ↔
      change.DropsConstraint name := by
  constructor
  · intro holds
    rcases holds with ⟨subject, member⟩
    rcases mem_constraintActions.mp member with
      ⟨column, keeps, inPlace, constraint, member⟩ | member | member
    · rcases (ColumnConstraint.mem_actions_iff.mp member).2 with
        ⟨carried, lost, equal⟩ | ⟨_, _, _, equal⟩ | ⟨_, _, _, equal⟩
      · exact .ofColumn keeps inPlace carried lost (Action.dropConstraint.inj equal).2.1.symm
      · cases equal
      · cases equal
    · rcases List.mem_map.mp member with ⟨⟨_, constraint⟩, loses, equal⟩
      cases equal
      rcases List.mem_filter.mp loses with ⟨loses, free⟩
      exact .ofTable loses (by simpa using free)
    · rcases List.mem_map.mp member with ⟨_, _, equal⟩
      dsimp only at equal
      split at equal <;> cases equal
  · intro drops
    cases drops with
    | @ofColumn column constraint keeps inPlace carried lost named =>
        have changed : constraint.changed column = true :=
          ColumnConstraint.changed_of_isSome_ne (by simp [carried, lost])
        refine ⟨column.new.name, mem_constraintActions.mpr
          (.inl ⟨column, keeps, inPlace, constraint, ?_⟩)⟩
        exact ColumnConstraint.mem_actions_iff.mpr ⟨changed, .inl ⟨carried, lost, named ▸ rfl⟩⟩
    | @ofTable constraint loses free =>
        refine ⟨name, mem_constraintActions.mpr (.inr (.inl ?_))⟩
        exact List.mem_map.mpr
          ⟨(name, constraint), List.mem_filter.mpr ⟨loses, by simpa using free⟩, rfl⟩

theorem exists_replaceConstraint_iff :
    (∃ constraint subject,
        .replaceConstraint change.new name constraint subject ∈ change.constraintActions) ↔
      change.ReplacesConstraint name := by
  constructor
  · intro holds
    rcases holds with ⟨added, subject, member⟩
    rcases mem_constraintActions.mp member with
      ⟨column, keeps, inPlace, constraint, member⟩ | member | member
    · rcases ColumnConstraint.mem_actions_iff.mp member with
        ⟨changed, ⟨_, _, equal⟩ | ⟨_, _, _, equal⟩ | ⟨carried, kind, carries, equal⟩⟩
      · cases equal
      · cases equal
      · exact .ofColumn keeps inPlace changed carried (carries ▸ rfl)
          (Action.replaceConstraint.inj equal).2.1.symm
    · rcases List.mem_map.mp member with ⟨_, _, equal⟩
      cases equal
    · rcases List.mem_map.mp member with ⟨_, _, equal⟩
      dsimp only at equal
      split at equal
      · cases equal
        exact .ofTable ‹_›
      · cases equal
  · intro replaces
    cases replaces with
    | @ofColumn column constraint keeps inPlace changed carried carries named =>
        rcases Option.isSome_iff_exists.mp carries with ⟨kind, carries⟩
        refine ⟨⟨some (constraint.name change.new column.new), kind⟩, column.new.name,
          mem_constraintActions.mpr (.inl ⟨column, keeps, inPlace, constraint, ?_⟩)⟩
        exact ColumnConstraint.mem_actions_iff.mpr
          ⟨changed, .inr (.inr ⟨carried, kind, carries, named ▸ rfl⟩)⟩
    | ofTable replaces =>
        have gains := replaces
        simp only [TableChange.replaces, Bool.and_eq_true, List.any_eq_true, beq_iff_eq] at gains
        rcases gains.1 with ⟨⟨other, constraint⟩, gains, named⟩
        refine ⟨{ constraint with name := some name }, name,
          mem_constraintActions.mpr (.inr (.inr ?_))⟩
        exact List.mem_map.mpr ⟨(name, constraint), named ▸ gains, if_pos replaces⟩

theorem exists_addConstraint_iff :
    (∃ constraint subject, constraint.effectiveName change.new.name = name ∧
        .addConstraint change.new constraint subject ∈ change.constraintActions) ↔
      change.AddsConstraint name := by
  constructor
  · intro holds
    rcases holds with ⟨added, subject, named, member⟩
    rcases mem_constraintActions.mp member with
      ⟨column, keeps, inPlace, constraint, member⟩ | member | member
    · rcases (ColumnConstraint.mem_actions_iff.mp member).2 with
        ⟨_, _, equal⟩ | ⟨free, kind, carries, equal⟩ | ⟨_, _, _, equal⟩
      · cases equal
      · cases equal
        exact .ofColumn keeps inPlace free (carries ▸ rfl) named
      · cases equal
    · rcases List.mem_map.mp member with ⟨_, _, equal⟩
      cases equal
    · rcases List.mem_map.mp member with ⟨⟨_, constraint⟩, gains, equal⟩
      dsimp only at equal
      split at equal
      · cases equal
      · cases equal
        cases named
        exact .ofTable gains (Bool.eq_false_iff.mpr ‹_›)
  · intro adds
    cases adds with
    | @ofColumn column constraint keeps inPlace free carries named =>
        have changed : constraint.changed column = true :=
          ColumnConstraint.changed_of_isSome_ne (by simp [carries, free])
        rcases Option.isSome_iff_exists.mp carries with ⟨kind, carries⟩
        refine ⟨⟨some (constraint.name change.new column.new), kind⟩, column.new.name, named,
          mem_constraintActions.mpr (.inl ⟨column, keeps, inPlace, constraint, ?_⟩)⟩
        exact ColumnConstraint.mem_actions_iff.mpr
          ⟨changed, .inr (.inl ⟨free, kind, carries, rfl⟩)⟩
    | @ofTable constraint gains free =>
        refine ⟨{ constraint with name := some name }, name, rfl,
          mem_constraintActions.mpr (.inr (.inr ?_))⟩
        exact List.mem_map.mpr ⟨(name, constraint), gains, if_neg (Bool.eq_false_iff.mp free)⟩

end TableChange

end SchemaDdl
