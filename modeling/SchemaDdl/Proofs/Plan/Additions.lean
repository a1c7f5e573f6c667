import SchemaDdl.Proofs.Plan.Replacement

/-!
# What is added to a table

On the Postgres family the additions to a table of both versions begin with its new columns. What
follows them are constraints and indexes, and the foreign keys among these are those of columns that
had none and of constraints that take no other one's place.
-/

namespace SchemaDdl

/-! ## Targets of foreign keys -/

structure KeyTarget where
  table : QualifiedName
  column : String
deriving DecidableEq, Repr

def Column.keyTargets (column : Column) : List KeyTarget :=
  column.references.toList.map fun reference => ⟨reference.table, reference.column⟩

def Constraint.keyTargets (constraint : Constraint) : List KeyTarget :=
  constraint.foreignKey?.toList.flatMap fun key =>
    key.referencedColumns.map fun column => ⟨key.table, column⟩

def Table.keyTargets (table : Table) : List KeyTarget :=
  table.columns.flatMap Column.keyTargets ++ table.constraints.flatMap Constraint.keyTargets

def Action.keyTargets : Action → List KeyTarget
  | .createTable table => table.keyTargets
  | .addColumn _ column _ => column.keyTargets
  | .addConstraint _ constraint _ | .replaceConstraint _ _ constraint _ => constraint.keyTargets
  | _ => []

theorem Column.exists_references {column : Column} {target : KeyTarget}
    (refers : target ∈ column.keyTargets) : ∃ reference, column.references = some reference := by
  cases references : column.references with
  | none => simp [keyTargets, references] at refers
  | some reference => exact ⟨reference, rfl⟩

theorem ColumnChange.referencesChanged_of_free {pair : ColumnChange} {target : KeyTarget}
    (free : pair.old.references = none) (refers : target ∈ pair.new.keyTargets) :
    pair.referencesChanged = true := by
  rcases Column.exists_references refers with ⟨reference, references⟩
  simp [referencesChanged, free, references]

theorem Action.operation_of_mem_keyTargets {action : Action} {target : KeyTarget}
    (refers : target ∈ action.keyTargets) :
    action.operation ∈ [.createTable, .addColumn, .addConstraint, .replaceConstraint] := by
  cases action <;> first | exact absurd refers List.not_mem_nil | simp [Action.operation]

namespace TableChange

def AddedBy (change : TableChange) (name : String) (actions : List Action) : Prop :=
  ∃ column again, .addColumn change.new column again ∈ actions ∧ column.name = name

inductive GainsKey (change : TableChange) (target : KeyTarget) : Prop
  | column {pair : ColumnChange} (keeps : change.KeepsColumn pair)
      (inPlace : pair.regenerates = false) (free : pair.old.references = none)
      (refers : target ∈ pair.new.keyTargets)
  | constraint {constraint : Constraint} (gains : change.GainsConstraint constraint)
      (free : change.replaces (constraint.effectiveName change.new.name) = false)
      (refers : target ∈ constraint.keyTargets)

end TableChange

/-! ## Additions to a table -/

namespace TableChange

variable {change : TableChange} {capabilities : Capabilities} {comments : Bool} {action : Action}
  {target : KeyTarget} {name : String} {actions others : List Action}

theorem keyTargets_addedColumn (column : Column) :
    (change.addedColumn column).keyTargets = column.keyTargets := by
  unfold addedColumn
  split <;> rfl

theorem addedBy_append :
    change.AddedBy name (actions ++ others) ↔
      change.AddedBy name actions ∨ change.AddedBy name others := by
  simp only [AddedBy, List.mem_append, or_and_right, exists_or]

theorem not_addedBy (quiet : ∀ action ∈ actions, action.operation ≠ .addColumn) :
    ¬change.AddedBy name actions := by
  intro added
  rcases added with ⟨column, again, member, _⟩
  exact quiet _ member rfl

theorem mem_keyTargets_iff_of_kind? {column : Column} {constraint : ColumnConstraint}
    {added : Constraint} (carried : constraint.kind? column = some added.kind) :
    target ∈ added.keyTargets ↔ constraint = .foreignKey ∧ target ∈ column.keyTargets := by
  rcases added with ⟨name, kind⟩
  cases constraint with
  | unique =>
      simp only [ColumnConstraint.kind?, Option.ite_none_right_eq_some, Option.some.injEq]
        at carried
      rcases carried with ⟨_, rfl⟩
      simp [Constraint.keyTargets, Constraint.foreignKey?]
  | check =>
      simp only [ColumnConstraint.kind?, Option.map_eq_some_iff] at carried
      rcases carried with ⟨_, _, rfl⟩
      simp [Constraint.keyTargets, Constraint.foreignKey?]
  | foreignKey =>
      simp only [ColumnConstraint.kind?, Option.map_eq_some_iff] at carried
      rcases carried with ⟨reference, refers, rfl⟩
      simp [Constraint.keyTargets, Constraint.foreignKey?, Column.keyTargets, refers]

def AddsKey (target : KeyTarget) (actions : List Action) : Prop :=
  ∃ action ∈ actions, action.operation.phase = .addition ∧ target ∈ action.keyTargets

theorem not_addsKey_nil : ¬AddsKey target [] := by
  simp [AddsKey]

theorem addsKey_append :
    AddsKey target (actions ++ others) ↔ AddsKey target actions ∨ AddsKey target others := by
  simp only [AddsKey, List.mem_append, or_and_right, exists_or]

theorem addsKey_map {α : Type} {items : List α} {actionOf : α → Action} :
    AddsKey target (items.map actionOf) ↔
      ∃ item ∈ items, (actionOf item).operation.phase = .addition ∧
        target ∈ (actionOf item).keyTargets := by
  simp [AddsKey]

theorem addsKey_actionIf {condition : Bool} :
    AddsKey target (actionIf condition action) ↔
      condition = true ∧ action.operation.phase = .addition ∧ target ∈ action.keyTargets := by
  cases condition <;> simp [AddsKey, actionIf]

theorem addsKey_constraintActions {pair : ColumnChange} {constraint : ColumnConstraint} :
    AddsKey target (constraint.actions change.old change.new pair) ↔
      constraint = .foreignKey ∧ pair.old.references = none ∧ target ∈ pair.new.keyTargets := by
  constructor
  · intro adds
    rcases adds with ⟨action, member, phase, refers⟩
    rcases constraint.of_mem_actions member with
      ⟨_, _, rfl⟩ | ⟨kind, _, held, carried, rfl⟩ | ⟨_, _, _, rfl⟩
    · cases phase
    · rcases (mem_keyTargets_iff_of_kind? carried).mp refers with ⟨rfl, refersColumn⟩
      exact ⟨rfl, Option.map_eq_none_iff.mp held, refersColumn⟩
    · cases phase
  · intro holds
    rcases holds with ⟨rfl, free, refers⟩
    have changed := ColumnChange.referencesChanged_of_free free refers
    have held : ColumnConstraint.foreignKey.kind? pair.old = none :=
      Option.map_eq_none_iff.mpr free
    have carried : ∃ kind, ColumnConstraint.foreignKey.kind? pair.new = some kind := by
      rcases Column.exists_references refers with ⟨reference, references⟩
      exact ⟨_, congrArg (Option.map _) references⟩
    rcases carried with ⟨kind, carried⟩
    refine ⟨.addConstraint change.new
      ⟨some (ColumnConstraint.foreignKey.name change.new pair.new), kind⟩ pair.new.name, ?_, rfl,
      (mem_keyTargets_iff_of_kind? carried).mpr ⟨rfl, refers⟩⟩
    simp [ColumnConstraint.actions, ColumnConstraint.changed, changed, held, carried]

theorem addsKey_columnActions {pair : ColumnChange} (inPlace : pair.regenerates = false) :
    AddsKey target (change.columnActions comments pair) ↔
      pair.old.references = none ∧ target ∈ pair.new.keyTargets := by
  have identity : ¬AddsKey target (change.identityActions pair) := by
    intro adds
    rcases adds with ⟨action, member, phase, _⟩
    rw [operation_of_mem_identityActions action member] at phase
    cases phase
  have constraints : AddsKey target ([ColumnConstraint.unique, .foreignKey, .check].flatMap
      (ColumnConstraint.actions change.old change.new pair)) ↔
        pair.old.references = none ∧ target ∈ pair.new.keyTargets := by
    simp [addsKey_append, addsKey_constraintActions]
  unfold columnActions
  rw [inPlace]
  simp only [Bool.false_eq_true, if_false, addsKey_append, identity, constraints, or_false]
  simp [addsKey_actionIf, Action.operation, Operation.phase]

theorem mem_addedConstraintActions :
    action ∈ change.addedConstraintActions ↔
      ∃ constraint, change.GainsConstraint constraint ∧
        let name := constraint.effectiveName change.new.name
        let named : Constraint := { constraint with name := some name }
        action = if change.replaces name then .replaceConstraint change.new name named name
          else .addConstraint change.new named name := by
  simp only [addedConstraintActions, List.mem_map, Prod.exists, mem_addedConstraints]
  constructor
  · intro holds
    rcases holds with ⟨name, constraint, ⟨rfl, gains⟩, rfl⟩
    exact ⟨constraint, gains, rfl⟩
  · intro holds
    rcases holds with ⟨constraint, gains, rfl⟩
    exact ⟨_, constraint, ⟨rfl, gains⟩, rfl⟩

theorem addsKey_addedConstraintActions :
    AddsKey target change.addedConstraintActions ↔
      ∃ constraint, change.GainsConstraint constraint ∧
        change.replaces (constraint.effectiveName change.new.name) = false ∧
        target ∈ constraint.keyTargets := by
  constructor
  · intro adds
    rcases adds with ⟨action, member, phase, refers⟩
    rcases mem_addedConstraintActions.mp member with ⟨constraint, gains, rfl⟩
    split at phase
    · cases phase
    · rename_i free
      rw [if_neg free] at refers
      exact ⟨constraint, gains, Bool.eq_false_iff.mpr free, refers⟩
  · intro holds
    rcases holds with ⟨constraint, gains, free, refers⟩
    refine ⟨_, mem_addedConstraintActions.mpr ⟨constraint, gains, rfl⟩, ?_⟩
    rw [if_neg (Bool.eq_false_iff.mp free)]
    exact ⟨rfl, refers⟩

theorem addsKey_tableActions :
    AddsKey target (change.tableActions capabilities comments) ↔
      ∃ constraint, change.GainsConstraint constraint ∧
        change.replaces (constraint.effectiveName change.new.name) = false ∧
        target ∈ constraint.keyTargets := by
  have options : ¬AddsKey target (if change.optionsChanged then change.refusals
      ++ (change.optionSettings capabilities).map (Action.setTable change.new.qualifiedName)
    else []) := by
    split
    · simp [refusals, addsKey_append, addsKey_actionIf, addsKey_map, Action.operation,
        Operation.phase]
    · exact not_addsKey_nil
  unfold tableActions
  simp only [addsKey_append, options, addsKey_addedConstraintActions, or_false]
  simp [removedConstraintActions, addsKey_actionIf, addsKey_map, Action.operation, Operation.phase]

theorem gainsKey_iff :
    change.GainsKey target ↔
      (∃ pair ∈ change.altered, pair.regenerates = false ∧
        AddsKey target (change.columnActions comments pair)) ∨
      AddsKey target (change.tableActions capabilities comments) := by
  constructor
  · intro gains
    cases gains with
    | @column pair keeps inPlace free refers =>
        have changed : pair.isChange = true := by
          simp [ColumnChange.isChange, ColumnChange.isStructural,
            ColumnChange.referencesChanged_of_free free refers]
        exact .inl ⟨pair, mem_altered.mpr ⟨keeps, changed⟩, inPlace,
          (addsKey_columnActions inPlace).mpr ⟨free, refers⟩⟩
    | constraint gains free refers => exact .inr (addsKey_tableActions.mpr ⟨_, gains, free, refers⟩)
  · intro adds
    rcases adds with ⟨pair, altered, inPlace, adds⟩ | adds
    · rcases (addsKey_columnActions inPlace).mp adds with ⟨free, refers⟩
      exact .column (mem_altered.mp altered).1 inPlace free refers
    · rcases addsKey_tableActions.mp adds with ⟨constraint, gains, free, refers⟩
      exact .constraint gains free refers

theorem operation_of_mem_indexAdditions
    (member : action ∈ actionsIn .addition change.indexAdditions) :
    action.operation = .createIndex := by
  rcases List.mem_flatMap.mp (mem_actionsIn.mp member) with ⟨index, _, member⟩
  split at member
  · cases List.mem_singleton.mp member
    rfl
  · split at member
    · cases member
    · rcases List.mem_pair.mp member with equal | equal <;> cases equal

def partAdditions (change : TableChange) (capabilities : Capabilities) (comments : Bool) :
    List Action :=
  (change.altered.flatMap fun pair => if pair.regenerates then []
      else (change.columnActions comments pair).filter (·.operation.phase == .addition))
    ++ (change.tableActions capabilities comments).filter (·.operation.phase == .addition)
    ++ actionsIn .addition change.indexAdditions

theorem operation_of_mem_partAdditions
    (member : action ∈ change.partAdditions capabilities comments) :
    action.operation ≠ .addColumn := by
  intro adds
  have other : changesPart action.operation = true ∨ action.operation = .createIndex := by
    rcases List.mem_append.mp member with member | member
    · refine .inl ?_
      rcases List.mem_append.mp member with member | member
      · rcases List.mem_flatMap.mp member with ⟨pair, _, member⟩
        split at member
        · cases member
        · exact changesPart_of_mem_columnActions (Bool.eq_false_iff.mpr ‹_›) action
            (List.mem_filter.mp member).1
      · exact changesPart_of_mem_tableActions action (List.mem_filter.mp member).1
    · exact .inr (operation_of_mem_indexAdditions member)
  rw [adds] at other
  rcases other with part | index
  · cases part
  · cases index

theorem exists_mem_partAdditions :
    (∃ action ∈ change.partAdditions capabilities comments, target ∈ action.keyTargets) ↔
      change.GainsKey target := by
  have filtered : ∀ actions : List Action,
      (∃ action ∈ actions.filter (·.operation.phase == .addition), target ∈ action.keyTargets) ↔
        AddsKey target actions := by
    simp [AddsKey, and_assoc]
  have indexes : ¬∃ action ∈ actionsIn .addition change.indexAdditions,
      target ∈ action.keyTargets := by
    intro refers
    rcases refers with ⟨action, member, refers⟩
    have carries := Action.operation_of_mem_keyTargets refers
    rw [operation_of_mem_indexAdditions member] at carries
    revert carries
    decide
  rw [gainsKey_iff, ← filtered, partAdditions]
  simp only [List.mem_append, or_and_right, exists_or, ← filtered, or_iff_left indexes]
  refine or_congr_left ⟨fun holds => ?_, fun holds => ?_⟩
  · rcases holds with ⟨action, member, refers⟩
    rcases List.mem_flatMap.mp member with ⟨pair, altered, member⟩
    split at member
    · cases member
    · exact ⟨pair, altered, Bool.eq_false_iff.mpr ‹_›, action, member, refers⟩
  · rcases holds with ⟨pair, altered, inPlace, action, member, refers⟩
    refine ⟨action, List.mem_flatMap.mpr ⟨pair, altered, ?_⟩, refers⟩
    rw [if_neg (Bool.eq_false_iff.mp inPlace)]
    exact member

theorem additions_columnSteps {pair : ColumnChange} :
    actionsIn .addition (change.columnSteps comments pair) =
      if pair.regenerates then []
      else (change.columnActions comments pair).filter (·.operation.phase == .addition) := by
  unfold columnSteps
  split
  · rename_i regenerates
    rw [columnActions_of_regenerates regenerates]
    rfl
  · exact actionsIn_map_routed

theorem additions_steps (postgres : capabilities.family = .postgres) :
    actionsIn .addition (change.steps capabilities comments) =
      change.columnAdditions
        ++ change.partAdditions capabilities (comments && capabilities.supports .comments) := by
  have dropped : actionsIn .addition change.indexRemovals = [] := by
    rw [indexRemovals_eq]
    exact actionsIn_map_create .dropIndex .removal fun _ => rfl
  have added : actionsIn .addition (change.columnAdditions.map .routed) = change.columnAdditions :=
    actionsIn_map_create (fun column => .addColumn change.new (change.addedColumn column) false)
      .addition fun _ => rfl
  have removed : actionsIn .addition (change.columnRemovals.map .routed) = [] :=
    actionsIn_map_create (fun column : Column => .dropColumn change.new.qualifiedName column.name)
      .removal fun _ => rfl
  rw [steps_of_postgres postgres, alterationSteps_eq postgres, List.map_append]
  simp only [actionsIn_append, actionsIn_flatMap, dropped, added, removed, List.nil_append,
    additions_columnSteps, actionsIn_map_routed, partAdditions, List.append_assoc]

theorem addedBy_map {gaining : TableChange} {columns : List Column} :
    gaining.AddedBy name
        (columns.map fun column => .addColumn change.new (change.addedColumn column) false) ↔
      gaining.new = change.new ∧ ∃ column ∈ columns, column.name = name := by
  constructor
  · intro added
    rcases added with ⟨column, again, member, name⟩
    rcases List.mem_map.mp member with ⟨gained, gainedMember, equal⟩
    rcases Action.addColumn.inj equal with ⟨same, rfl, _⟩
    exact ⟨same.symm, gained, gainedMember, (name_addedColumn gained).symm.trans name⟩
  · intro holds
    rcases holds with ⟨same, column, member, name⟩
    refine ⟨change.addedColumn column, false, ?_, (name_addedColumn column).trans name⟩
    rw [same]
    exact List.mem_map_of_mem member

theorem addedBy_additions {gaining : TableChange} (postgres : capabilities.family = .postgres) :
    gaining.AddedBy name (actionsIn .addition (change.steps capabilities comments)) ↔
      gaining.new = change.new ∧ ∃ column ∈ change.added, column.name = name := by
  have parts : ¬gaining.AddedBy name
      (change.partAdditions capabilities (comments && capabilities.supports .comments)) :=
    not_addedBy fun _ => operation_of_mem_partAdditions
  rw [additions_steps postgres, addedBy_append, or_iff_left parts]
  exact addedBy_map

end TableChange

end SchemaDdl
