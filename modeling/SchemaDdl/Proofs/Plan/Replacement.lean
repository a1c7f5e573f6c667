import SchemaDdl.Proofs.Change.Danger
import SchemaDdl.Proofs.Plan.Phases
import SchemaDdl.Proofs.Plan.Steps

/-!
# What is replaced in a table

What alters a table of both versions is an addition, a change in place or a removal, and belongs to
the phase of its kind. Only a column or an index that takes the place of another one of its name is
dropped and added at once, among the changes in place.
-/

namespace SchemaDdl

/-! ## Alterations of a table -/

theorem forall_mem_actionIf {condition : Bool} {action : Action} {holds : Action → Prop} :
    (∀ other ∈ actionIf condition action, holds other) ↔ (condition = true → holds action) := by
  cases condition <;> simp [actionIf]

theorem ColumnConstraint.of_mem_actions {old new : Table} {pair : ColumnChange}
    {constraint : ColumnConstraint} {action : Action}
    (member : action ∈ constraint.actions old new pair) :
    (∃ name subject, action = .dropConstraint new.qualifiedName name subject) ∨
      (∃ kind, constraint.changed pair = true ∧ constraint.kind? pair.old = none ∧
        constraint.kind? pair.new = some kind ∧
        action = .addConstraint new ⟨some (constraint.name new pair.new), kind⟩ pair.new.name) ∨
      ∃ name added subject, action = .replaceConstraint new name added subject := by
  unfold actions at member
  dsimp only at member
  split at member
  · split at member
    · cases member
    · exact .inl ⟨_, _, List.mem_singleton.mp member⟩
    · exact .inr (.inl ⟨_, ‹_›, ‹_›, ‹_›, List.mem_singleton.mp member⟩)
    · exact .inr (.inr ⟨_, _, _, List.mem_singleton.mp member⟩)
  · cases member

namespace TableChange

variable {change : TableChange} {capabilities : Capabilities} {comments : Bool} {action : Action}

theorem exists_of_mem_identityActions {pair : ColumnChange} :
    ∀ action ∈ change.identityActions pair,
      ∃ kind, action = .alterColumn change.new pair.new kind := by
  unfold identityActions
  split
  · exact List.forall_mem_nil _
  · split
    · exact List.forall_mem_append.mpr
        ⟨forall_mem_actionIf.mpr fun _ => ⟨_, rfl⟩, List.forall_mem_singleton.mpr ⟨_, rfl⟩⟩
    · exact List.forall_mem_singleton.mpr ⟨_, rfl⟩

theorem operation_of_mem_identityActions {pair : ColumnChange} :
    ∀ action ∈ change.identityActions pair, action.operation = .alterColumn := by
  intro action member
  rcases exists_of_mem_identityActions action member with ⟨kind, rfl⟩
  rfl

def tableActions (change : TableChange) (capabilities : Capabilities) (comments : Bool) :
    List Action :=
  let table := change.new.qualifiedName
  change.removedConstraintActions ++ actionIf change.primaryKeyChanged (.replacePrimaryKey change)
    ++ change.addedConstraintActions
    ++ (if change.optionsChanged then
        change.refusals ++ (change.optionSettings capabilities).map (.setTable table)
      else [])
    ++ (change.platformSettings capabilities).map (.setTable table)
    ++ actionIf (change.commentChanged && comments) (.commentTable table change.new.comment)

def columnAdditions (change : TableChange) : List Action :=
  change.added.map fun column => .addColumn change.new (change.addedColumn column) false

def columnRemovals (change : TableChange) : List Action :=
  change.removed.map fun column => .dropColumn change.new.qualifiedName column.name

theorem postgresActions_eq :
    change.postgresActions capabilities comments =
      change.columnAdditions ++ change.columnRemovals
        ++ change.altered.flatMap (change.columnActions comments)
        ++ change.tableActions capabilities comments := by
  simp only [postgresActions, columnAdditions, columnRemovals, tableActions, List.append_assoc]

theorem name_addedColumn (column : Column) : (change.addedColumn column).name = column.name := by
  unfold addedColumn
  split <;> rfl

theorem tableActions_eq_nil (added : change.addedConstraints = [])
    (removed : change.removedConstraints = []) (primaryKey : change.primaryKeyChanged = false)
    (options : change.optionsChanged = false) (platform : change.old.platform = change.new.platform)
    (comment : change.commentChanged = false) :
    change.tableActions capabilities comments = [] := by
  simp [tableActions, removedConstraintActions, addedConstraintActions, platformSettings, settingIf,
    actionIf, added, removed, primaryKey, options, platform, comment]

theorem tableActions_of_isEmpty (empty : change.isEmpty = true) :
    change.tableActions capabilities comments = [] := by
  simp only [isEmpty, platformChanged, Bool.and_eq_true, Bool.not_eq_true', List.isEmpty_iff,
    bne_eq_false_iff_eq] at empty
  rcases empty with
    ⟨⟨⟨⟨⟨⟨⟨⟨_, _⟩, _⟩, added⟩, removed⟩, primaryKey⟩, options⟩, platform⟩, comment⟩
  exact tableActions_eq_nil added removed primaryKey options platform comment

theorem actions_of_postgres (postgres : capabilities.family = .postgres) :
    change.actions capabilities comments =
      change.columnAdditions ++ change.columnRemovals
        ++ change.altered.flatMap
          (change.columnActions (comments && capabilities.supports .comments))
        ++ change.tableActions capabilities (comments && capabilities.supports .comments) := by
  unfold actions
  rw [postgres]
  split
  · rename_i empty
    rw [tableActions_of_isEmpty empty]
    simp only [isEmpty, Bool.and_eq_true, List.isEmpty_iff] at empty
    simp [columnAdditions, columnRemovals, empty]
  · exact postgresActions_eq

theorem actions_of_inPlace (sqlite : capabilities.family = .sqlite)
    (inPlace : change.requiresRecreation capabilities = false) :
    change.actions capabilities comments =
      change.added.map (fun column => Action.addColumn change.new column false)
        ++ change.columnRemovals := by
  unfold actions
  rw [sqlite]
  split
  · rename_i empty
    simp only [isEmpty, Bool.and_eq_true, List.isEmpty_iff] at empty
    simp [columnRemovals, empty]
  · exact if_neg (Bool.eq_false_iff.mp inPlace)

def changesPart (operation : Operation) : Bool :=
  [.alterColumn, .comment, .addConstraint, .dropConstraint, .replaceConstraint,
    .tableSettings].contains operation

theorem phase_of_changesPart {operation : Operation} (part : changesPart operation = true) :
    operation.phase ≠ .creation ∧ operation.phase ≠ .tableRemoval := by
  revert part
  cases operation <;> decide

theorem operation_ne_of_changesPart {operation : Operation}
    (part : changesPart operation = true) :
    operation ≠ .addColumn ∧ operation ≠ .dropColumn := by
  revert part
  cases operation <;> decide

theorem not_column_of_changesPart {operation : Operation} (part : changesPart operation = true) :
    (operation == .addColumn || operation == .dropColumn) = false := by
  rcases operation_ne_of_changesPart part with ⟨notAdded, notDropped⟩
  rw [beq_false_of_ne notAdded, beq_false_of_ne notDropped, Bool.or_self]

/-- The actions that change something about a table apart from its columns. -/
inductive AltersRest (change : TableChange) : Action → Prop
  | added (constraint : Constraint) (subject : String) :
      AltersRest change (.addConstraint change.new constraint subject)
  | dropped (name subject : String) :
      AltersRest change (.dropConstraint change.new.qualifiedName name subject)
  | replaced (name : String) (constraint : Constraint) (subject : String) :
      AltersRest change (.replaceConstraint change.new name constraint subject)
  | primaryKey : AltersRest change (.replacePrimaryKey change)
  | setting (setting : TableSetting) :
      AltersRest change (.setTable change.new.qualifiedName setting)
  | refused (construct : Construct) : AltersRest change (.refuse change.new.qualifiedName construct)
  | comment (comment : Option String) :
      AltersRest change (.commentTable change.new.qualifiedName comment)

theorem AltersRest.of_mem_tableActions :
    ∀ action ∈ change.tableActions capabilities comments, change.AltersRest action := by
  have removed : ∀ action ∈ change.removedConstraintActions, change.AltersRest action :=
    List.forall_mem_map.mpr fun _ _ => .dropped ..
  have added : ∀ action ∈ change.addedConstraintActions, change.AltersRest action := by
    refine List.forall_mem_map.mpr fun named _ => ?_
    dsimp only
    split
    · exact .replaced ..
    · exact .added ..
  have options : ∀ action ∈ (if change.optionsChanged then change.refusals
      ++ (change.optionSettings capabilities).map (Action.setTable change.new.qualifiedName)
    else []), change.AltersRest action := by
    split
    · simp only [refusals, List.forall_mem_append, forall_mem_actionIf, List.forall_mem_map]
      exact ⟨⟨⟨fun _ => .refused _, fun _ => .refused _⟩, fun _ => .refused _⟩,
        fun _ _ => .setting _⟩
    · exact List.forall_mem_nil _
  unfold tableActions
  simp only [List.forall_mem_append, forall_mem_actionIf, List.forall_mem_map]
  exact ⟨⟨⟨⟨⟨removed, fun _ => .primaryKey⟩, added⟩, options⟩, fun _ _ => .setting _⟩,
    fun _ => .comment _⟩

inductive AltersColumn (change : TableChange) (column : Column) : Action → Prop
  | column (action : ColumnAction) :
      AltersColumn change column (.alterColumn change.new column action)
  | added (constraint : Constraint) (subject : String) :
      AltersColumn change column (.addConstraint change.new constraint subject)
  | dropped (name subject : String) :
      AltersColumn change column (.dropConstraint change.new.qualifiedName name subject)
  | replaced (name : String) (constraint : Constraint) (subject : String) :
      AltersColumn change column (.replaceConstraint change.new name constraint subject)
  | comment : AltersColumn change column
      (.commentColumn change.new.qualifiedName column.name column.comment)

theorem AltersColumn.of_mem_columnActions {pair : ColumnChange}
    (inPlace : pair.regenerates = false) :
    ∀ action ∈ change.columnActions comments pair, change.AltersColumn pair.new action := by
  have constraints : ∀ action ∈ [ColumnConstraint.unique, .foreignKey, .check].flatMap
      (ColumnConstraint.actions change.old change.new pair),
        change.AltersColumn pair.new action := by
    intro action member
    rcases List.mem_flatMap.mp member with ⟨constraint, _, member⟩
    rcases constraint.of_mem_actions member with
      ⟨_, _, rfl⟩ | ⟨_, _, _, _, rfl⟩ | ⟨_, _, _, rfl⟩
    · exact .dropped ..
    · exact .added ..
    · exact .replaced ..
  have identity : ∀ action ∈ change.identityActions pair,
      change.AltersColumn pair.new action := by
    intro action member
    rcases exists_of_mem_identityActions action member with ⟨kind, rfl⟩
    exact .column kind
  unfold columnActions
  rw [inPlace]
  simp only [Bool.false_eq_true, if_false, List.forall_mem_append, forall_mem_actionIf]
  exact ⟨⟨⟨⟨⟨⟨fun _ => .column _, fun _ => .column _⟩, fun _ => .column _⟩, identity⟩,
    fun _ => .column _⟩, constraints⟩, fun _ => .comment⟩

inductive AltersPart (change : TableChange) : Action → Prop
  | column (column : Column) (action : ColumnAction) :
      AltersPart change (.alterColumn change.new column action)
  | columnComment (column : String) (comment : Option String) :
      AltersPart change (.commentColumn change.new.qualifiedName column comment)
  | rest {action : Action} (rest : change.AltersRest action) : AltersPart change action

namespace AltersPart

theorem changesPart (part : change.AltersPart action) : changesPart action.operation = true := by
  cases part with
  | rest rest => cases rest <;> rfl
  | _ => rfl

theorem of_altersColumn {column : Column} (alters : change.AltersColumn column action) :
    change.AltersPart action := by
  cases alters with
  | column kind => exact .column column kind
  | added => exact .rest (.added ..)
  | dropped => exact .rest (.dropped ..)
  | replaced => exact .rest (.replaced ..)
  | comment => exact .columnComment ..

theorem of_mem_columnActions {pair : ColumnChange}
    (inPlace : pair.regenerates = false) :
    ∀ action ∈ change.columnActions comments pair, change.AltersPart action :=
  fun action member => of_altersColumn (AltersColumn.of_mem_columnActions inPlace action member)

theorem of_mem_tableActions :
    ∀ action ∈ change.tableActions capabilities comments, change.AltersPart action :=
  fun action member => .rest (AltersRest.of_mem_tableActions action member)

end AltersPart

theorem changesPart_of_mem_columnActions {pair : ColumnChange}
    (inPlace : pair.regenerates = false) :
    ∀ action ∈ change.columnActions comments pair, changesPart action.operation = true :=
  fun action member => (AltersPart.of_mem_columnActions inPlace action member).changesPart

theorem changesPart_of_mem_tableActions :
    ∀ action ∈ change.tableActions capabilities comments, changesPart action.operation = true :=
  fun action member => (AltersPart.of_mem_tableActions action member).changesPart

inductive Alters (change : TableChange) : Action → Prop
  | added {column : Column} {held : Column} (gains : change.GainsColumn column)
      (name : held.name = column.name) : Alters change (.addColumn change.new held false)
  | removed {column : Column} (loses : change.LosesColumn column) :
      Alters change (.dropColumn change.new.qualifiedName column.name)
  | dropped {pair : ColumnChange} (keeps : change.KeepsColumn pair)
      (regenerates : pair.regenerates = true) :
      Alters change (.dropColumn change.new.qualifiedName pair.new.name)
  | addedAgain {pair : ColumnChange} (keeps : change.KeepsColumn pair)
      (regenerates : pair.regenerates = true) : Alters change (.addColumn change.new pair.new true)
  | recreated : Alters change (.recreateTable change)
  | part {action : Action} (part : changesPart action.operation = true) : Alters change action

theorem Alters.phase_ne_creation (alters : change.Alters action) :
    action.operation.phase ≠ .creation := by
  cases alters with
  | part part => exact (phase_of_changesPart part).1
  | _ => nofun

theorem Alters.phase_ne_tableRemoval (alters : change.Alters action) :
    action.operation.phase ≠ .tableRemoval := by
  cases alters with
  | part part => exact (phase_of_changesPart part).2
  | _ => nofun

theorem alters_of_mem_postgresActions :
    ∀ action ∈ change.postgresActions capabilities comments, change.Alters action := by
  rw [postgresActions_eq]
  simp only [List.forall_mem_append, columnAdditions, columnRemovals, List.forall_mem_map]
  refine ⟨⟨⟨?_, ?_⟩, ?_⟩,
    fun action member => .part (changesPart_of_mem_tableActions action member)⟩
  · exact fun column member => .added (mem_added.mp member) (name_addedColumn column)
  · exact fun column member => .removed (mem_removed.mp member)
  · intro action member
    rcases List.mem_flatMap.mp member with ⟨pair, pairMember, member⟩
    have keeps := (mem_altered.mp pairMember).1
    cases regenerates : pair.regenerates with
    | false => exact .part (changesPart_of_mem_columnActions regenerates action member)
    | true =>
        unfold columnActions at member
        rw [if_pos regenerates] at member
        rcases List.mem_pair.mp member with rfl | rfl
        · exact .dropped keeps regenerates
        · exact .addedAgain keeps regenerates

theorem alters_of_mem_actions :
    ∀ action ∈ change.actions capabilities comments, change.Alters action := by
  unfold actions
  split
  · exact List.forall_mem_nil _
  · split
    · exact alters_of_mem_postgresActions
    · unfold sqliteActions
      split
      · exact List.forall_mem_singleton.mpr .recreated
      · simp only [List.forall_mem_append, List.forall_mem_map]
        exact ⟨fun column member => .added (mem_added.mp member) rfl,
          fun column member => .removed (mem_removed.mp member)⟩

/-! ## Columns that are replaced -/

theorem columnPath_inj {table : QualifiedName} {left right : String} :
    Action.columnPath table left = Action.columnPath table right ↔ left = right := by
  refine ⟨fun same => String.toList_injective ?_, congrArg _⟩
  have texts := congrArg String.toList same
  simpa [Action.columnPath, toString] using texts

def Replaces (change : TableChange) (name : String) : Prop :=
  ∃ pair, change.KeepsColumn pair ∧ pair.regenerates = true ∧ pair.new.name = name

theorem lost_or_replaced_of_dropped {name : String}
    (member : action ∈ change.actions capabilities comments)
    (drops : action.operation = .dropColumn)
    (path : action.affected.head? = some (Action.columnPath change.new.qualifiedName name)) :
    (∃ column, change.LosesColumn column ∧ column.name = name) ∨ change.Replaces name := by
  cases alters_of_mem_actions action member with
  | removed loses => exact .inl ⟨_, loses, columnPath_inj.mp (Option.some.inj path)⟩
  | dropped keeps regenerates =>
      exact .inr ⟨_, keeps, regenerates, columnPath_inj.mp (Option.some.inj path)⟩
  | added => cases drops
  | addedAgain => cases drops
  | recreated => cases drops
  | part part =>
      rw [drops] at part
      cases part

theorem gained_or_replaced_of_added {name : String}
    (member : action ∈ change.actions capabilities comments) (adds : action.operation = .addColumn)
    (path : action.affected.head? = some (Action.columnPath change.new.qualifiedName name)) :
    (∃ column, change.GainsColumn column ∧ column.name = name) ∨ change.Replaces name := by
  cases alters_of_mem_actions action member with
  | added gains same =>
      exact .inl ⟨_, gains, same.symm.trans (columnPath_inj.mp (Option.some.inj path))⟩
  | addedAgain keeps regenerates =>
      exact .inr ⟨_, keeps, regenerates, columnPath_inj.mp (Option.some.inj path)⟩
  | removed => cases adds
  | dropped => cases adds
  | recreated => cases adds
  | part part =>
      rw [adds] at part
      cases part

theorem replaces_of_isReplaced {name : String}
    (replaced : isReplaced (change.actions capabilities comments)
      (Action.columnPath change.new.qualifiedName name) = true) : change.Replaces name := by
  simp only [isReplaced, Bool.and_eq_true, List.any_eq_true, beq_iff_eq] at replaced
  rcases replaced with ⟨⟨dropped, droppedMember, drops, droppedPath⟩,
    ⟨added, addedMember, adds, addedPath⟩⟩
  rcases lost_or_replaced_of_dropped droppedMember drops droppedPath with
    ⟨lost, loses, name⟩ | replaces
  · rcases gained_or_replaced_of_added addedMember adds addedPath with
      ⟨gained, gains, same⟩ | replaces
    · exact absurd (same.trans name.symm) (loses.2 gained gains.1)
    · exact replaces
  · exact replaces

theorem alterationStep_of_not_replaced {name : String}
    (path : action.affected.head? = some (Action.columnPath change.new.qualifiedName name))
    (kept : ¬change.Replaces name) :
    alterationStep (change.actions capabilities comments) action = .routed action := by
  have other : isReplaced (change.actions capabilities comments)
      (Action.columnPath change.new.qualifiedName name) = false :=
    Bool.eq_false_iff.mpr fun replaced => kept (replaces_of_isReplaced replaced)
  rw [alterationStep, path, Option.any_some, other, Bool.and_false]
  rfl

theorem alterationStep_of_gains {column held : Column} (gains : change.GainsColumn column)
    (name : held.name = column.name) :
    alterationStep (change.actions capabilities comments) (.addColumn change.new held false) =
      .routed (.addColumn change.new held false) := by
  refine alterationStep_of_not_replaced rfl fun replaces => ?_
  rcases replaces with ⟨pair, keeps, _, same⟩
  have found := List.find?_some keeps.2
  exact gains.2 pair.old (List.mem_of_find?_eq_some keeps.2)
    ((beq_iff_eq.mp found).trans (same.trans name))

theorem alterationStep_of_loses {column : Column} (loses : change.LosesColumn column) :
    alterationStep (change.actions capabilities comments)
        (.dropColumn change.new.qualifiedName column.name) =
      .routed (.dropColumn change.new.qualifiedName column.name) := by
  refine alterationStep_of_not_replaced rfl fun replaces => ?_
  rcases replaces with ⟨pair, keeps, _, same⟩
  exact loses.2 pair.new keeps.1 same

theorem alterationStep_of_part {actions : List Action}
    (part : changesPart action.operation = true) :
    alterationStep actions action = .routed action := by
  rw [alterationStep, not_column_of_changesPart part, Bool.false_and]
  rfl

theorem alterationStep_of_regenerates {pair : ColumnChange} {actions : List Action}
    (dropped : .dropColumn change.new.qualifiedName pair.new.name ∈ actions)
    (added : .addColumn change.new pair.new true ∈ actions) :
    [.dropColumn change.new.qualifiedName pair.new.name, .addColumn change.new pair.new true].map
        (alterationStep actions) =
      [⟨.modification, .dropColumn change.new.qualifiedName pair.new.name⟩,
        ⟨.modification, .addColumn change.new pair.new true⟩] := by
  have replaced : isReplaced actions
      (Action.columnPath change.new.qualifiedName pair.new.name) = true := by
    simp only [isReplaced, Bool.and_eq_true, List.any_eq_true]
    exact ⟨⟨_, dropped, by simp [Action.operation, Action.affected]⟩,
      ⟨_, added, by simp [Action.operation, Action.affected]⟩⟩
  simp [alterationStep, Action.operation, Action.affected, replaced]

theorem columnActions_of_regenerates {pair : ColumnChange} (regenerates : pair.regenerates = true) :
    change.columnActions comments pair =
      [.dropColumn change.new.qualifiedName pair.new.name, .addColumn change.new pair.new true] :=
  if_pos regenerates

def columnSteps (change : TableChange) (comments : Bool) (pair : ColumnChange) : List PlanStep :=
  if pair.regenerates then
    (change.columnActions comments pair).map fun action => ⟨.modification, action⟩
  else
    (change.columnActions comments pair).map .routed

theorem map_alterationStep_columnActions {pair : ColumnChange} {actions : List Action}
    (members : ∀ action ∈ change.columnActions comments pair, action ∈ actions) :
    (change.columnActions comments pair).map (alterationStep actions) =
      change.columnSteps comments pair := by
  unfold columnSteps
  split
  · rename_i regenerates
    rw [columnActions_of_regenerates regenerates] at members ⊢
    rcases List.forall_mem_cons.mp members with ⟨dropped, rest⟩
    exact alterationStep_of_regenerates dropped (List.forall_mem_singleton.mp rest)
  · rename_i inPlace
    exact List.map_congr_left fun action member => alterationStep_of_part
      (changesPart_of_mem_columnActions (Bool.eq_false_iff.mpr inPlace) action member)

theorem alterationStep_of_mem_gainsAndLosses {held : Column → Column}
    (name : ∀ column, (held column).name = column.name) :
    ∀ action ∈ change.added.map (fun column => Action.addColumn change.new (held column) false)
        ++ change.columnRemovals,
      alterationStep (change.actions capabilities comments) action = .routed action :=
  List.forall_mem_append.mpr
    ⟨List.forall_mem_map.mpr fun column member =>
      alterationStep_of_gains (mem_added.mp member) (name column),
    List.forall_mem_map.mpr fun _ member => alterationStep_of_loses (mem_removed.mp member)⟩

theorem alterationSteps_eq (postgres : capabilities.family = .postgres) :
    change.alterationSteps capabilities comments =
      (change.columnAdditions ++ change.columnRemovals).map .routed
        ++ change.altered.flatMap
          (change.columnSteps (comments && capabilities.supports .comments))
        ++ (change.tableActions capabilities
          (comments && capabilities.supports .comments)).map .routed := by
  have actions := @actions_of_postgres change capabilities comments postgres
  have members : ∀ pair ∈ change.altered,
      ∀ action ∈ change.columnActions (comments && capabilities.supports .comments) pair,
        action ∈ change.actions capabilities comments := by
    intro pair altered action member
    rw [actions]
    exact List.mem_append_left _
      (List.mem_append_right _ (List.mem_flatMap.mpr ⟨pair, altered, member⟩))
  have columns : (change.columnAdditions ++ change.columnRemovals).map
      (alterationStep (change.actions capabilities comments)) =
        (change.columnAdditions ++ change.columnRemovals).map .routed :=
    List.map_congr_left (alterationStep_of_mem_gainsAndLosses name_addedColumn)
  have parts : (change.tableActions capabilities
      (comments && capabilities.supports .comments)).map
        (alterationStep (change.actions capabilities comments)) =
          (change.tableActions capabilities
            (comments && capabilities.supports .comments)).map .routed :=
    List.map_congr_left fun action member =>
      alterationStep_of_part (changesPart_of_mem_tableActions action member)
  have changes : (change.altered.flatMap
      (change.columnActions (comments && capabilities.supports .comments))).map
        (alterationStep (change.actions capabilities comments)) =
          change.altered.flatMap
            (change.columnSteps (comments && capabilities.supports .comments)) := by
    rw [List.map_flatMap]
    exact List.flatMap_congr fun pair altered =>
      map_alterationStep_columnActions (members pair altered)
  rw [alterationSteps, ← columns, ← changes, ← parts, ← List.map_append, ← List.map_append,
    ← actions]

theorem alterationSteps_eq_of_sqlite (sqlite : capabilities.family = .sqlite) :
    change.alterationSteps capabilities comments =
      (change.actions capabilities comments).map .routed := by
  refine List.map_congr_left fun action member => ?_
  have alters := member
  unfold TableChange.actions at alters
  split at alters
  · cases alters
  · rw [sqlite] at alters
    simp only [sqliteActions] at alters
    split at alters
    · rw [List.mem_singleton.mp alters]
      rfl
    · exact alterationStep_of_mem_gainsAndLosses (fun _ => rfl) action alters

end TableChange

/-! ## Changes in place -/

def Operation.adds : Operation → Bool
  | .addColumn | .addConstraint | .createIndex => true
  | _ => false

def Operation.removes : Operation → Bool
  | .dropColumn | .dropConstraint | .dropIndex => true
  | _ => false

theorem Operation.of_modification {operation : Operation}
    (inPlace : operation.phase = .modification) :
    operation.adds = false ∧ operation.removes = false := by
  revert inPlace
  cases operation <;> decide

/-- Actions that neither add nor remove anything, and between them the replacements of columns and
indexes of some tables, each of them dropped and added at once. -/
inductive ChangesInPlace (pairs : List TableChange) : List Action → Prop
  | nil : ChangesInPlace pairs []
  | other {action : Action} {actions : List Action} (adds : action.operation.adds = false)
      (removes : action.operation.removes = false) (rest : ChangesInPlace pairs actions) :
      ChangesInPlace pairs (action :: actions)
  | column {pair : TableChange} {column : ColumnChange} {actions : List Action}
      (kept : pair ∈ pairs) (keeps : pair.KeepsColumn column)
      (regenerates : column.regenerates = true)
      (rest : ChangesInPlace pairs actions) :
      ChangesInPlace pairs (.dropColumn pair.new.qualifiedName column.new.name
        :: .addColumn pair.new column.new true :: actions)
  | index {pair : TableChange} {old new : Index} {actions : List Action} (kept : pair ∈ pairs)
      (oldMember : old ∈ pair.old.indexes) (newMember : new ∈ pair.new.indexes)
      (name : old.name = new.name) (different : old ≠ new) (rest : ChangesInPlace pairs actions) :
      ChangesInPlace pairs (.dropIndex old :: .createIndex new :: actions)

namespace ChangesInPlace

variable {pairs : List TableChange} {actions others : List Action}

theorem append (first : ChangesInPlace pairs actions) (second : ChangesInPlace pairs others) :
    ChangesInPlace pairs (actions ++ others) := by
  induction first with
  | nil => exact second
  | other adds removes _ induction => exact .other adds removes induction
  | column kept keeps regenerates _ induction => exact .column kept keeps regenerates induction
  | index kept oldMember newMember name different _ induction =>
      exact .index kept oldMember newMember name different induction

theorem flatMap {α : Type} {items : List α} {actionsOf : α → List Action}
    (each : ∀ item ∈ items, ChangesInPlace pairs (actionsOf item)) :
    ChangesInPlace pairs (items.flatMap actionsOf) := by
  induction items with
  | nil => exact .nil
  | cons item items induction =>
      rcases List.forall_mem_cons.mp each with ⟨first, rest⟩
      exact first.append (induction rest)

theorem of_modification (inPlace : ∀ action ∈ actions, action.operation.phase = .modification) :
    ChangesInPlace pairs actions := by
  induction actions with
  | nil => exact .nil
  | cons action actions induction =>
      rcases List.forall_mem_cons.mp inPlace with ⟨first, rest⟩
      rcases Operation.of_modification first with ⟨adds, removes⟩
      exact .other adds removes (induction rest)

theorem actionsIn_map_routed :
    ChangesInPlace pairs (actionsIn .modification (actions.map .routed)) := by
  refine of_modification fun action member => ?_
  rw [SchemaDdl.actionsIn_map_routed] at member
  exact beq_iff_eq.mp (List.mem_filter.mp member).2

end ChangesInPlace

/-- Whether a step alters a table, in the phase of its operation or among the changes in place. -/
structure PlanStep.IsAlteration (step : PlanStep) : Prop where
  phase : step.phase = step.action.operation.phase ∨ step.phase = .modification
  notCreation : step.action.operation.phase ≠ .creation
  notTableRemoval : step.action.operation.phase ≠ .tableRemoval

namespace TableChange

variable {change : TableChange} {capabilities : Capabilities} {comments : Bool}
  {pairs : List TableChange}

theorem changesInPlace_columnSteps (kept : change ∈ pairs) {pair : ColumnChange}
    (altered : pair ∈ change.altered) :
    ChangesInPlace pairs (actionsIn .modification (change.columnSteps comments pair)) := by
  unfold columnSteps
  split
  · rename_i regenerates
    rw [columnActions_of_regenerates regenerates]
    exact .column kept (mem_altered.mp altered).1 regenerates .nil
  · exact .actionsIn_map_routed

theorem changesInPlace_alterationSteps (kept : change ∈ pairs) :
    ChangesInPlace pairs
      (actionsIn .modification (change.alterationSteps capabilities comments)) := by
  cases family : capabilities.family with
  | postgres =>
      rw [alterationSteps_eq family, actionsIn_append, actionsIn_append, actionsIn_flatMap]
      refine (ChangesInPlace.actionsIn_map_routed.append (.flatMap fun pair altered => ?_)).append
        .actionsIn_map_routed
      exact changesInPlace_columnSteps kept altered
  | sqlite =>
      rw [alterationSteps_eq_of_sqlite family]
      exact .actionsIn_map_routed

theorem changesInPlace_indexAdditions (kept : change ∈ pairs) :
    ChangesInPlace pairs (actionsIn .modification change.indexAdditions) := by
  rw [indexAdditions, actionsIn_flatMap]
  refine .flatMap fun index member => ?_
  split
  · exact .nil
  · rename_i held found
    split
    · exact .nil
    · rename_i different
      have named := List.find?_some found
      refine .index kept (List.mem_of_find?_eq_some found) member (beq_iff_eq.mp named) ?_ .nil
      simpa using different

theorem indexRemovals_eq :
    change.indexRemovals = ((change.old.indexes.filter fun index =>
      !change.new.indexes.any (·.name == index.name)).map Action.dropIndex).map .routed := by
  rw [indexRemovals, List.map_map]
  rfl

theorem changesInPlace_steps (kept : change ∈ pairs) :
    ChangesInPlace pairs (actionsIn .modification (change.steps capabilities comments)) := by
  unfold steps
  split
  · exact changesInPlace_alterationSteps kept
  · rw [actionsIn_append, actionsIn_append, indexRemovals_eq]
    exact (ChangesInPlace.actionsIn_map_routed.append (changesInPlace_alterationSteps kept)).append
      (changesInPlace_indexAdditions kept)

theorem isAlteration_of_mem_steps :
    ∀ step ∈ change.steps capabilities comments, step.IsAlteration := by
  have alterations : ∀ step ∈ change.alterationSteps capabilities comments, step.IsAlteration := by
    refine List.forall_mem_map.mpr fun action member => ⟨?_, ?_, ?_⟩
    · unfold alterationStep
      split
      · exact .inr rfl
      · exact .inl rfl
    · rw [action_alterationStep]
      exact (alters_of_mem_actions action member).phase_ne_creation
    · rw [action_alterationStep]
      exact (alters_of_mem_actions action member).phase_ne_tableRemoval
  have removals : ∀ step ∈ change.indexRemovals, step.IsAlteration :=
    List.forall_mem_map.mpr fun _ _ => ⟨.inl rfl, nofun, nofun⟩
  have additions : ∀ step ∈ change.indexAdditions, step.IsAlteration := by
    refine List.forall_mem_flatMap.mpr fun index _ => ?_
    split
    · exact List.forall_mem_singleton.mpr ⟨.inl rfl, nofun, nofun⟩
    · split
      · exact List.forall_mem_nil _
      · exact List.forall_mem_cons.mpr
          ⟨⟨.inr rfl, nofun, nofun⟩, List.forall_mem_singleton.mpr ⟨.inr rfl, nofun, nofun⟩⟩
  unfold steps
  split
  · exact alterations
  · exact List.forall_mem_append.mpr ⟨List.forall_mem_append.mpr ⟨removals, alterations⟩, additions⟩

theorem of_mem_indexSteps {step : PlanStep}
    (member : step ∈ change.indexRemovals ∨ step ∈ change.indexAdditions) :
    ∃ index, step.action = .dropIndex index ∨ step.action = .createIndex index := by
  rcases member with member | member
  · rcases List.mem_map.mp member with ⟨index, _, rfl⟩
    exact ⟨index, .inl rfl⟩
  · rcases List.mem_flatMap.mp member with ⟨index, _, member⟩
    split at member
    · rw [List.mem_singleton.mp member]
      exact ⟨index, .inr rfl⟩
    · rename_i held _
      split at member
      · cases member
      · rcases List.mem_pair.mp member with rfl | rfl
        · exact ⟨held, .inl rfl⟩
        · exact ⟨index, .inr rfl⟩

theorem steps_of_inPlace (inPlace : change.requiresRecreation capabilities = false) :
    change.steps capabilities comments =
      change.indexRemovals ++ change.alterationSteps capabilities comments
        ++ change.indexAdditions :=
  if_neg (Bool.eq_false_iff.mp inPlace)

theorem steps_of_postgres (postgres : capabilities.family = .postgres) :
    change.steps capabilities comments =
      change.indexRemovals ++ change.alterationSteps capabilities comments
        ++ change.indexAdditions :=
  steps_of_inPlace (by simp only [requiresRecreation, postgres])

theorem steps_of_requiresRecreation (rebuilt : change.requiresRecreation capabilities = true) :
    change.steps capabilities comments = [.routed (.recreateTable change)] := by
  have sqlite : capabilities.family = .sqlite := by
    unfold requiresRecreation at rebuilt
    split at rebuilt
    · cases rebuilt
    · assumption
  have differs : change.isEmpty = false := by
    refine Bool.eq_false_iff.mpr fun empty => ?_
    simp only [isEmpty, Bool.and_eq_true, Bool.not_eq_true', List.isEmpty_iff] at empty
    simp [requiresRecreation, sqlite, empty] at rebuilt
  unfold steps
  rw [if_pos rebuilt, alterationSteps_eq_of_sqlite sqlite, actions, differs, sqlite]
  simp only [Bool.false_eq_true, if_false, sqliteActions, rebuilt, if_true, List.map_cons,
    List.map_nil]

theorem operation_of_mem_postgresActions :
    ∀ action ∈ change.postgresActions capabilities comments, action.operation ≠ .recreateTable := by
  have parts : ∀ {operation : Operation}, changesPart operation = true →
      operation ≠ .recreateTable := by
    intro operation part same
    rw [same] at part
    cases part
  rw [postgresActions_eq]
  simp only [List.forall_mem_append, columnAdditions, columnRemovals, List.forall_mem_map]
  refine ⟨⟨⟨fun _ _ => nofun, fun _ _ => nofun⟩, ?_⟩,
    fun action member => parts (changesPart_of_mem_tableActions action member)⟩
  intro action member
  rcases List.mem_flatMap.mp member with ⟨pair, _, member⟩
  cases regenerates : pair.regenerates with
  | false => exact parts (changesPart_of_mem_columnActions regenerates action member)
  | true =>
      rw [columnActions_of_regenerates regenerates] at member
      rcases List.mem_pair.mp member with rfl | rfl <;> nofun

theorem requiresRecreation_of_mem_actions
    (member : action ∈ change.actions capabilities comments)
    (rebuilds : action.operation = .recreateTable) :
    change.requiresRecreation capabilities = true := by
  unfold actions at member
  split at member
  · cases member
  · split at member
    · exact absurd rebuilds (operation_of_mem_postgresActions action member)
    · unfold sqliteActions at member
      split at member
      · assumption
      · rcases List.mem_append.mp member with member | member
        · rcases List.mem_map.mp member with ⟨column, _, rfl⟩
          cases rebuilds
        · rcases List.mem_map.mp member with ⟨column, _, rfl⟩
          cases rebuilds

theorem mem_actions_or_index_of_mem_steps :
    ∀ step ∈ change.steps capabilities comments,
      step.action ∈ change.actions capabilities comments ∨
        ∃ index, step.action = .dropIndex index ∨ step.action = .createIndex index := by
  have alterations : ∀ step ∈ change.alterationSteps capabilities comments,
      step.action ∈ change.actions capabilities comments := by
    refine List.forall_mem_map.mpr fun action member => ?_
    rw [action_alterationStep]
    exact member
  unfold steps
  split
  · exact fun step member => .inl (alterations step member)
  · refine List.forall_mem_append.mpr ⟨List.forall_mem_append.mpr ⟨?_, ?_⟩, ?_⟩
    · exact fun step member => .inr (of_mem_indexSteps (.inl member))
    · exact fun step member => .inl (alterations step member)
    · exact fun step member => .inr (of_mem_indexSteps (.inr member))

theorem requiresRecreation_of_mem_steps {step : PlanStep} {rebuilt : TableChange}
    (rebuilds : step.action = .recreateTable rebuilt)
    (member : step ∈ change.steps capabilities comments) :
    rebuilt = change ∧ change.requiresRecreation capabilities = true := by
  rcases mem_actions_or_index_of_mem_steps step member with member | ⟨index, drops | creates⟩
  · rw [rebuilds] at member
    have requires := requiresRecreation_of_mem_actions member rfl
    refine ⟨?_, requires⟩
    cases alters_of_mem_actions _ member with
    | recreated => rfl
    | part part => cases part
  · cases rebuilds.symm.trans drops
  · cases rebuilds.symm.trans creates

end TableChange

end SchemaDdl
