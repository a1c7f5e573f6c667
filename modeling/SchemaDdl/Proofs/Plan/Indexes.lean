import Mathlib.Data.List.Flatten
import Mathlib.Data.List.Perm.Basic
import SchemaDdl.Capability.BuiltIn
import SchemaDdl.Proofs.Ledger
import SchemaDdl.Proofs.Plan.Order

/-!
# Names of indexes while a plan runs

The indexes of two versions are compared table by table, but an index shares its name with no other
one of its schema, on whatever table. A plan creates the indexes that a table gets before it drops
those that another one loses. It runs without a clash of names exactly when no index takes the name
of one that is there still.
-/

namespace SchemaDdl

/-! ## Names of indexes -/

def Index.resolvedName (defaultSchema : String) (index : Index) : QualifiedName :=
  index.qualifiedName.resolve defaultSchema

def Table.indexNames (defaultSchema : String) (table : Table) : List QualifiedName :=
  table.indexes.map (·.resolvedName defaultSchema)

def Schema.indexNames (defaultSchema : String) (schema : Schema) : List QualifiedName :=
  schema.tables.flatMap (·.indexNames defaultSchema)

namespace TableChange

def newIndexes (pair : TableChange) : List Index :=
  pair.new.indexes.filter fun index => (pair.old.indexes.find? (·.name == index.name)).isNone

def replacedIndex? (pair : TableChange) (index : Index) : Option Index :=
  (pair.old.indexes.find? (·.name == index.name)).filter (· != index)

def replacedNames (pair : TableChange) (defaultSchema : String) (indexes : List Index) :
    List QualifiedName :=
  (indexes.filterMap pair.replacedIndex?).map (·.resolvedName defaultSchema)

def freedNames (pair : TableChange) (capabilities : Capabilities) (defaultSchema : String) :
    List QualifiedName :=
  if pair.requiresRecreation capabilities then pair.old.indexNames defaultSchema
  else pair.replacedNames defaultSchema pair.new.indexes

end TableChange

namespace SchemaChange

/-- What an action does to the names of indexes. The indexes of a table go with it, and a table that
is built anew has those of its new version. -/
def indexEntry (change : SchemaChange) : Action → Entry QualifiedName
  | .createIndex index => { added := [index.resolvedName change.defaultSchema] }
  | .dropIndex index => { dropped := [index.resolvedName change.defaultSchema] }
  | .dropTable name =>
      { dropped := (change.old.tables.filter (change.same ·.qualifiedName name)).flatMap
          (·.indexNames change.defaultSchema) }
  | .recreateTable pair =>
      { dropped := pair.old.indexNames change.defaultSchema
        added := pair.new.indexNames change.defaultSchema }
  | _ => {}

/-- Whether actions never put an index in force whose name is in force already. -/
def KeepsIndexNamesApart (change : SchemaChange) (actions : List Action) : Prop :=
  (Entry.postAll? (change.old.indexNames change.defaultSchema)
    (actions.map change.indexEntry)).isSome = true

instance (change : SchemaChange) (actions : List Action) :
    Decidable (change.KeepsIndexNamesApart actions) :=
  inferInstanceAs (Decidable (_ = true))

def TakesName (change : SchemaChange) (index : Index) : Prop :=
  index.resolvedName change.defaultSchema ∈ change.old.indexNames change.defaultSchema

/-- Whether the indexes that are built or replaced with a table take only names that are free after
the changes of the tables before it: those of the old table where it is built anew, else that of the
index whose place is taken, or of one that was replaced before. -/
def IndexesFollow (change : SchemaChange) (capabilities : Capabilities)
    (before : List TableChange) (pair : TableChange) : Prop :=
  let freed := before.flatMap (·.freedNames capabilities change.defaultSchema)
  let name (index : Index) := index.resolvedName change.defaultSchema
  if pair.requiresRecreation capabilities then
    ∀ index ∈ pair.new.indexes, change.TakesName index →
      name index ∈ pair.old.indexNames change.defaultSchema ∨ name index ∈ freed
  else
    EachAfter (fun front index => ∀ held, pair.replacedIndex? index = some held →
      change.TakesName index → name index = name held ∨
        name index ∈ freed ++ pair.replacedNames change.defaultSchema front) pair.new.indexes

/-- Whether no index takes the name of one that is in force still. -/
structure IndexNamesFree (change : SchemaChange) (capabilities : Capabilities) : Prop where
  created : ∀ table ∈ change.createdTables, ∀ index ∈ table.indexes, ¬change.TakesName index
  gained : ∀ pair ∈ change.keptTables, pair.requiresRecreation capabilities = false →
    ∀ index ∈ pair.newIndexes, ¬change.TakesName index
  replaced : EachAfter (change.IndexesFollow capabilities) change.keptTables

/-! ## What actions do to names -/

variable {change : SchemaChange} {capabilities : Capabilities} {comments : Bool} {action : Action}
  {actions others : List Action} {pair : TableChange} {index : Index}

def addedNames (change : SchemaChange) (actions : List Action) : List QualifiedName :=
  actions.flatMap fun action => (change.indexEntry action).added

def droppedNames (change : SchemaChange) (actions : List Action) : List QualifiedName :=
  actions.flatMap fun action => (change.indexEntry action).dropped

def concernsIndexes (operation : Operation) : Bool :=
  [.createIndex, .dropIndex, .dropTable, .recreateTable].contains operation

theorem indexEntry_of_quiet (quiet : concernsIndexes action.operation = false) :
    change.indexEntry action = {} := by
  cases action <;> first | rfl | cases quiet

theorem addedNames_of_quiet (quiet : ∀ action ∈ actions, concernsIndexes action.operation = false) :
    change.addedNames actions = [] :=
  List.flatMap_eq_nil_iff.mpr fun action member => by rw [indexEntry_of_quiet (quiet action member)]

theorem droppedNames_of_quiet
    (quiet : ∀ action ∈ actions, concernsIndexes action.operation = false) :
    change.droppedNames actions = [] :=
  List.flatMap_eq_nil_iff.mpr fun action member => by rw [indexEntry_of_quiet (quiet action member)]

@[simp] theorem addedNames_append :
    change.addedNames (actions ++ others) =
      change.addedNames actions ++ change.addedNames others :=
  List.flatMap_append

@[simp] theorem droppedNames_append :
    change.droppedNames (actions ++ others) =
      change.droppedNames actions ++ change.droppedNames others :=
  List.flatMap_append

@[simp] theorem droppedNames_flatMap {α : Type} {items : List α} {actionsOf : α → List Action} :
    change.droppedNames (items.flatMap actionsOf) =
      items.flatMap (change.droppedNames <| actionsOf ·) :=
  List.flatMap_assoc

@[simp] theorem addedNames_flatMap {α : Type} {items : List α} {actionsOf : α → List Action} :
    change.addedNames (items.flatMap actionsOf) =
      items.flatMap (change.addedNames <| actionsOf ·) :=
  List.flatMap_assoc

def TakesFreeNames (change : SchemaChange) (earlier : List Action) (action : Action) : Prop :=
  ∀ name ∈ (change.indexEntry action).added, name ∈ change.old.indexNames change.defaultSchema →
    name ∈ (change.indexEntry action).dropped ∨ name ∈ change.droppedNames earlier

theorem keepsIndexNamesApart_iff (distinct : (change.addedNames actions).Nodup) :
    change.KeepsIndexNamesApart actions ↔ EachAfter change.TakesFreeNames actions := by
  have added : (actions.map change.indexEntry).flatMap (·.added) = change.addedNames actions :=
    List.flatMap_map ..
  rw [KeepsIndexNamesApart, Entry.isSome_postAll?_iff (added ▸ distinct), eachAfter_map]
  simp only [Entry.Follows, List.flatMap_map]
  rfl

theorem eachAfter_takesFreeNames_of_quiet {earlier : List Action → List Action}
    (quiet : ∀ action ∈ actions, (change.indexEntry action).added = []) :
    EachAfter (fun before => change.TakesFreeNames (earlier before)) actions := by
  intro before action after split name member
  rw [quiet action (split ▸ List.mem_append_right _ List.mem_cons_self)] at member
  cases member

theorem eachAfter_takesFreeNames_of_keeping {prior : List Action}
    (priorKeeps : change.droppedNames prior = []) (keeps : change.droppedNames actions = []) :
    EachAfter (fun before => change.TakesFreeNames (prior ++ before)) actions ↔
      ∀ name ∈ change.addedNames actions, name ∉ change.old.indexNames change.defaultSchema := by
  refine Iff.trans (b := ∀ action ∈ actions, ∀ name ∈ (change.indexEntry action).added,
    name ∉ change.old.indexNames change.defaultSchema) ?_ List.forall_mem_flatMap.symm
  refine eachAfter_iff_forall fun before members action member => ?_
  have front : change.droppedNames (prior ++ before) = [] := by
    rw [droppedNames_append, priorKeeps]
    exact List.flatMap_eq_nil_iff.mpr fun action member =>
      List.flatMap_eq_nil_iff.mp keeps action (members action member)
  rw [TakesFreeNames, front, List.flatMap_eq_nil_iff.mp keeps action member]
  simp

/-! ## What is done to the indexes of a table -/

theorem quiet_of_mem_alterationSteps (inPlace : pair.requiresRecreation capabilities = false) :
    ∀ step ∈ pair.alterationSteps capabilities comments,
      concernsIndexes step.action.operation = false := by
  refine List.forall_mem_map.mpr fun action member => ?_
  rw [TableChange.action_alterationStep]
  cases TableChange.alters_of_mem_actions action member with
  | recreated =>
      rw [TableChange.requiresRecreation_of_mem_actions member rfl] at inPlace
      cases inPlace
  | part part =>
      revert part
      cases action.operation <;> decide
  | _ => rfl

/-- The actions that put an index of the new version in the place of one of the old version. -/
def replacementActions (pair : TableChange) (index : Index) : List Action :=
  (pair.replacedIndex? index).toList.flatMap fun held => [.dropIndex held, .createIndex index]

theorem modifications_indexAdditions :
    actionsIn .modification pair.indexAdditions =
      pair.new.indexes.flatMap (replacementActions pair) := by
  rw [TableChange.indexAdditions, actionsIn_flatMap]
  refine List.flatMap_congr fun index _ => ?_
  unfold replacementActions TableChange.replacedIndex?
  cases found : pair.old.indexes.find? (·.name == index.name) with
  | none => rfl
  | some held =>
      dsimp only
      by_cases same : held = index
      · simp [same, Option.filter, actionsIn]
      · simp [same, Option.filter, actionsIn]

theorem addedNames_additions_indexAdditions :
    change.addedNames (actionsIn .addition pair.indexAdditions) =
      pair.newIndexes.map (·.resolvedName change.defaultSchema) := by
  rw [TableChange.indexAdditions, actionsIn_flatMap, addedNames_flatMap, TableChange.newIndexes]
  induction pair.new.indexes with
  | nil => rfl
  | cons index indexes induction =>
      rw [List.flatMap_cons, induction, List.filter_cons]
      cases found : pair.old.indexes.find? (·.name == index.name) with
      | none => rfl
      | some held =>
          dsimp only
          by_cases same : held = index
          · simp [same, actionsIn, addedNames]
          · simp [same, actionsIn, addedNames]

theorem addedNames_indexAdditions_sublist :
    (change.addedNames (pair.indexAdditions.map (·.action))).Sublist
      (pair.new.indexNames change.defaultSchema) := by
  rw [TableChange.indexAdditions, List.map_flatMap, addedNames_flatMap, Table.indexNames,
    List.map_eq_flatMap]
  refine .flatMap_right _ fun index _ => ?_
  split
  · exact .refl _
  · split
    · exact List.nil_sublist _
    · exact .refl _

theorem quiet_of_mem_actionsIn_alterationSteps {phase : Phase}
    (inPlace : pair.requiresRecreation capabilities = false) :
    ∀ action ∈ actionsIn phase (pair.alterationSteps capabilities comments),
      concernsIndexes action.operation = false :=
  fun _ member => quiet_of_mem_alterationSteps inPlace _ (mem_actionsIn.mp member)

theorem actionsIn_indexRemovals {phase : Phase} :
    actionsIn phase pair.indexRemovals = if Phase.removal = phase then
      (pair.old.indexes.filter fun index =>
        !pair.new.indexes.any (·.name == index.name)).map .dropIndex else [] := by
  rw [TableChange.indexRemovals_eq]
  exact actionsIn_map_create .dropIndex .removal fun _ => rfl

theorem addedNames_additions :
    change.addedNames (actionsIn .addition (pair.steps capabilities comments)) =
      if pair.requiresRecreation capabilities then []
      else pair.newIndexes.map (·.resolvedName change.defaultSchema) := by
  split
  · rw [TableChange.steps_of_requiresRecreation ‹_›]
    rfl
  · have inPlace := Bool.eq_false_iff.mpr ‹_›
    rw [TableChange.steps_of_inPlace inPlace, actionsIn_append, actionsIn_append, addedNames_append,
      addedNames_append, addedNames_additions_indexAdditions, actionsIn_indexRemovals,
      addedNames_of_quiet (quiet_of_mem_actionsIn_alterationSteps inPlace)]
    rfl

theorem droppedNames_replacementActions {indexes : List Index} :
    change.droppedNames (indexes.flatMap (replacementActions pair)) =
      pair.replacedNames change.defaultSchema indexes := by
  unfold TableChange.replacedNames
  induction indexes with
  | nil => rfl
  | cons index indexes induction =>
      rw [List.flatMap_cons, droppedNames_append, induction, List.filterMap_cons,
        replacementActions]
      cases pair.replacedIndex? index <;> rfl

theorem modifications_of_inPlace (inPlace : pair.requiresRecreation capabilities = false) :
    actionsIn .modification (pair.steps capabilities comments) =
      actionsIn .modification (pair.alterationSteps capabilities comments)
        ++ pair.new.indexes.flatMap (replacementActions pair) := by
  rw [TableChange.steps_of_inPlace inPlace, actionsIn_append, actionsIn_append,
    modifications_indexAdditions, actionsIn_indexRemovals]
  rfl

theorem modifications_of_requiresRecreation
    (rebuilt : pair.requiresRecreation capabilities = true) :
    actionsIn .modification (pair.steps capabilities comments) = [.recreateTable pair] := by
  rw [TableChange.steps_of_requiresRecreation rebuilt]
  rfl

theorem droppedNames_modifications :
    change.droppedNames (actionsIn .modification (pair.steps capabilities comments)) =
      pair.freedNames capabilities change.defaultSchema := by
  unfold TableChange.freedNames
  split
  · rw [modifications_of_requiresRecreation ‹_›]
    exact List.append_nil _
  · have inPlace := Bool.eq_false_iff.mpr ‹_›
    rw [modifications_of_inPlace inPlace, droppedNames_append, droppedNames_replacementActions,
      droppedNames_of_quiet (quiet_of_mem_actionsIn_alterationSteps inPlace), List.nil_append]

theorem eachAfter_modifications {before : List TableChange} {prior : List Action}
    (keeps : change.droppedNames prior = []) :
    EachAfter (fun front => change.TakesFreeNames (prior ++ (before.flatMap
        (fun pair => actionsIn .modification (pair.steps capabilities comments)) ++ front)))
        (actionsIn .modification (pair.steps capabilities comments)) ↔
      change.IndexesFollow capabilities before pair := by
  have names : ∀ front, change.droppedNames (prior ++ (before.flatMap
      (fun pair => actionsIn .modification (pair.steps capabilities comments)) ++ front)) =
        before.flatMap (·.freedNames capabilities change.defaultSchema)
          ++ change.droppedNames front := by
    intro front
    simp only [droppedNames_append, droppedNames_flatMap, droppedNames_modifications, keeps,
      List.nil_append]
  unfold IndexesFollow
  split
  · rename_i rebuilt
    rw [modifications_of_requiresRecreation rebuilt, eachAfter_singleton, TakesFreeNames, names]
    simp [indexEntry, Table.indexNames, TakesName, droppedNames]
  · have inPlace := Bool.eq_false_iff.mpr ‹_›
    have quiet : ∀ action ∈ actionsIn .modification (pair.alterationSteps capabilities comments),
        concernsIndexes action.operation = false := quiet_of_mem_actionsIn_alterationSteps inPlace
    rw [modifications_of_inPlace inPlace, eachAfter_append, and_iff_right
      (eachAfter_takesFreeNames_of_quiet fun action member => by
        rw [indexEntry_of_quiet (quiet action member)]), eachAfter_flatMap]
    refine eachAfter_congr fun front index after split => ?_
    cases replaced : pair.replacedIndex? index with
    | none =>
        have actions : replacementActions pair index = [] := by simp [replacementActions, replaced]
        rw [actions]
        exact iff_of_true eachAfter_nil nofun
    | some held =>
        have actions : replacementActions pair index = [.dropIndex held, .createIndex index] := by
          simp [replacementActions, replaced]
        have dropped : change.droppedNames [.dropIndex held] =
          [held.resolvedName change.defaultSchema] := rfl
        rw [actions, eachAfter_cons, eachAfter_singleton,
          and_iff_right (show change.TakesFreeNames _ (.dropIndex held) from nofun), TakesFreeNames,
          names, droppedNames_append, droppedNames_append, droppedNames_of_quiet quiet,
          droppedNames_replacementActions, dropped]
        simp only [indexEntry, List.not_mem_nil, List.nil_append, false_or, List.mem_append,
          List.mem_singleton, forall_eq, Option.some.injEq, forall_eq', TakesName]
        refine imp_congr_right fun _ => ?_
        rw [← or_assoc, or_comm]

/-! ## Names in a whole plan -/

theorem addedNames_plannedActions_sublist :
    (change.addedNames (pair.plannedActions capabilities comments)).Sublist
      (pair.new.indexNames change.defaultSchema) := by
  unfold TableChange.plannedActions
  cases rebuilt : pair.requiresRecreation capabilities with
  | true =>
      rw [TableChange.steps_of_requiresRecreation rebuilt]
      have added : change.addedNames [.recreateTable pair] =
        pair.new.indexNames change.defaultSchema := List.append_nil _
      exact added ▸ .refl _
  | false =>
      have removed : change.addedNames (pair.indexRemovals.map (·.action)) = [] := by
        refine List.flatMap_eq_nil_iff.mpr (List.forall_mem_map.mpr ?_)
        exact List.forall_mem_map.mpr fun _ _ => rfl
      have altered : change.addedNames
          ((pair.alterationSteps capabilities comments).map (·.action)) = [] :=
        addedNames_of_quiet (List.forall_mem_map.mpr (quiet_of_mem_alterationSteps rebuilt))
      rw [TableChange.steps_of_inPlace rebuilt, List.map_append, List.map_append, addedNames_append,
        addedNames_append, removed, altered]
      exact addedNames_indexAdditions_sublist

theorem quiet_of_mem_completion {table : Table} :
    ∀ action ∈ table.completion capabilities comments,
      concernsIndexes action.operation = false := by
  intro action member
  rcases Table.of_mem_completion member with ⟨_, rfl⟩ | ⟨_, rfl⟩ | ⟨_, _, rfl⟩ <;> rfl

theorem quiet_of_mem_leadingSteps :
    ∀ step ∈ change.leadingSteps, concernsIndexes step.action.operation = false := by
  intro step member
  have leads := (of_mem_leadingSteps member).2
  revert leads
  cases step.action.operation <;> decide

theorem quiet_of_mem_trailingSteps :
    ∀ step ∈ change.trailingSteps, concernsIndexes step.action.operation = false := by
  intro step member
  have trails := (operation_of_mem_trailingSteps member).1
  revert trails
  cases step.action.operation <;> decide

theorem addedNames_map_createIndex {indexes : List Index} :
    change.addedNames (indexes.map .createIndex) =
      indexes.map (·.resolvedName change.defaultSchema) := by
  rw [addedNames, List.flatMap_map, List.map_eq_flatMap]
  rfl

theorem addedNames_creationActions {table : Table} :
    change.addedNames (creationActions capabilities comments table) =
      table.indexNames change.defaultSchema := by
  have completed : change.addedNames (table.completion capabilities comments) = [] :=
    addedNames_of_quiet quiet_of_mem_completion
  have built : change.addedNames [.createTable table] = [] := rfl
  rw [creationActions, List.cons_append, ← List.singleton_append, addedNames_append,
    addedNames_append, built, completed, addedNames_map_createIndex, List.append_nil]
  rfl

theorem perm_createdTables :
    (change.createdTables ++ change.keptTables.map (·.new)).Perm change.new.tables := by
  rw [map_new_keptTables]
  exact List.filter_append_perm ..

theorem nodup_addedNames (apart : (change.new.indexNames change.defaultSchema).Nodup) :
    (change.addedNames (orderedActions (change.steps capabilities comments))).Nodup := by
  have found : (change.addedNames (orderedActions (change.steps capabilities comments))).Perm
      (change.addedNames ((change.steps capabilities comments).map (·.action))) :=
    (orderedActions_perm _).flatMap_right _
  have created : (change.creationOrder.flatMap (·.indexNames change.defaultSchema)).Perm
      (change.createdTables.flatMap (·.indexNames change.defaultSchema)) :=
    perm_creationOrder.flatMap_right _
  have kept : (change.keptTables.flatMap fun pair =>
      change.addedNames (pair.plannedActions capabilities comments)).Sublist
        ((change.keptTables.map (·.new)).flatMap (·.indexNames change.defaultSchema)) := by
    rw [List.flatMap_map]
    exact .flatMap_right _ fun _ _ => addedNames_plannedActions_sublist
  have whole : change.addedNames ((change.steps capabilities comments).map (·.action)) =
      change.creationOrder.flatMap (·.indexNames change.defaultSchema)
        ++ change.keptTables.flatMap fun pair =>
          change.addedNames (pair.plannedActions capabilities comments) := by
    have leading : change.addedNames (change.leadingSteps.map (·.action)) = [] :=
      addedNames_of_quiet (List.forall_mem_map.mpr quiet_of_mem_leadingSteps)
    have trailing : change.addedNames (change.trailingSteps.map (·.action)) = [] :=
      addedNames_of_quiet (List.forall_mem_map.mpr quiet_of_mem_trailingSteps)
    have dropped : change.addedNames (change.dropSteps.map (·.action)) = [] :=
      List.flatMap_eq_nil_iff.mpr (List.forall_mem_map.mpr (List.forall_mem_map.mpr fun _ _ => rfl))
    rw [steps_eq, creationSteps_eq]
    simp only [List.map_append, addedNames_append, leading, trailing, dropped, List.map_map,
      List.nil_append, List.append_nil, List.map_flatMap, addedNames_flatMap]
    refine congrArg (· ++ _) (List.flatMap_congr fun table _ => ?_)
    exact (congrArg change.addedNames (List.map_id _)).trans addedNames_creationActions
  rw [found.nodup_iff, whole]
  rw [Schema.indexNames, ← (perm_createdTables.flatMap_right _).nodup_iff, List.flatMap_append]
    at apart
  refine List.Nodup.sublist (.append_left kept _) ?_
  exact ((created.append_right _).nodup_iff).mpr apart

theorem added_indexEntry_eq_nil (notAddition : action.operation.phase ≠ .addition)
    (notChange : action.operation.phase ≠ .modification) :
    (change.indexEntry action).added = [] := by
  cases action <;> first | rfl | exact absurd rfl notAddition | exact absurd rfl notChange

theorem dropped_indexEntry_eq_nil
    (adds : action.operation.phase = .creation ∨ action.operation.phase = .addition) :
    (change.indexEntry action).dropped = [] := by
  cases action <;> first | rfl | (rcases adds with phase | phase <;> cases phase)

theorem forall_mem_addedNames_additions :
    (∀ name ∈ change.addedNames (actionsIn .addition (change.steps capabilities comments)),
        name ∉ change.old.indexNames change.defaultSchema) ↔
      (∀ table ∈ change.createdTables, ∀ index ∈ table.indexes, ¬change.TakesName index) ∧
        ∀ pair ∈ change.keptTables, pair.requiresRecreation capabilities = false →
          ∀ index ∈ pair.newIndexes, ¬change.TakesName index := by
  rw [actionsIn_steps, addedNames_append, List.forall_mem_append, addedNames_map_createIndex,
    keptActions, addedNames_flatMap]
  refine and_congr ?_ ?_
  · rw [List.forall_mem_map, List.forall_mem_flatMap]
    exact forall_congr' fun table => imp_congr_left mem_inDependencyOrder
  · rw [List.forall_mem_flatMap]
    refine forall₂_congr fun pair _ => ?_
    rw [addedNames_additions]
    cases pair.requiresRecreation capabilities with
    | true => simp
    | false => simp [TakesName]

theorem eachAfter_modification {prior : List Action} (keeps : change.droppedNames prior = []) :
    EachAfter (fun before => change.TakesFreeNames (prior ++ before))
        (actionsIn .modification (change.steps capabilities comments)) ↔
      EachAfter (change.IndexesFollow capabilities) change.keptTables := by
  have completions : ∀ action ∈ change.creationOrder.flatMap
      (Table.completion capabilities comments), concernsIndexes action.operation = false :=
    List.forall_mem_flatMap.mpr fun _ _ => quiet_of_mem_completion
  have completed : ∀ action ∈ change.creationOrder.flatMap (Table.completion capabilities comments),
      (change.indexEntry action).added = [] := fun action member => by
    rw [indexEntry_of_quiet (completions action member)]
  have trails : ∀ action ∈ change.trailingSteps.map (·.action),
      (change.indexEntry action).added = [] := List.forall_mem_map.mpr fun step member => by
    rw [indexEntry_of_quiet (quiet_of_mem_trailingSteps step member)]
  have quiet : change.droppedNames (prior
      ++ change.creationOrder.flatMap (Table.completion capabilities comments)) = [] := by
    rw [droppedNames_append, keeps, droppedNames_of_quiet completions]
    rfl
  rw [actionsIn_steps, eachAfter_append, eachAfter_append,
    and_iff_left (eachAfter_takesFreeNames_of_quiet trails),
    and_iff_right (eachAfter_takesFreeNames_of_quiet completed), keptActions, eachAfter_flatMap]
  simp only [← List.append_assoc prior]
  exact eachAfter_congr fun before pair after _ => eachAfter_modifications quiet

theorem keepsIndexNamesApart_orderedActions_iff
    (apart : (change.new.indexNames change.defaultSchema).Nodup) :
    change.KeepsIndexNamesApart (orderedActions (change.steps capabilities comments)) ↔
      change.IndexNamesFree capabilities := by
  have adding : ∀ phase, phase ≠ .modification → phase ≠ .addition →
      ∀ action ∈ actionsIn phase (change.steps capabilities comments),
        (change.indexEntry action).added = [] := by
    intro phase notChange notAddition action member
    have own := operation_phase_of_mem_actionsIn notChange action member
    exact added_indexEntry_eq_nil (own ▸ notAddition) (own ▸ notChange)
  have created : change.droppedNames
      (actionsIn .creation (change.steps capabilities comments)) = [] :=
    List.flatMap_eq_nil_iff.mpr fun action member =>
      dropped_indexEntry_eq_nil (.inl (operation_phase_of_mem_actionsIn (by decide) action member))
  have added : change.droppedNames
      (actionsIn .addition (change.steps capabilities comments)) = [] :=
    List.flatMap_eq_nil_iff.mpr fun action member =>
      dropped_indexEntry_eq_nil (.inr (operation_phase_of_mem_actionsIn (by decide) action member))
  have front : change.droppedNames (actionsIn .creation (change.steps capabilities comments)
      ++ actionsIn .addition (change.steps capabilities comments)) = [] := by
    rw [droppedNames_append, created, added]
    rfl
  -- Nothing is put in force before the additions, nor after the changes in place.
  rw [keepsIndexNamesApart_iff (nodup_addedNames apart), orderedActions_eq, eachAfter_append,
    eachAfter_append, eachAfter_append, eachAfter_append,
    and_iff_left (eachAfter_takesFreeNames_of_quiet (adding .tableRemoval nofun nofun)),
    and_iff_left (eachAfter_takesFreeNames_of_quiet (adding .removal nofun nofun)),
    and_iff_right (eachAfter_takesFreeNames_of_quiet (adding .creation nofun nofun)),
    eachAfter_takesFreeNames_of_keeping created added, eachAfter_modification front,
    forall_mem_addedNames_additions]
  constructor
  · intro holds
    exact ⟨holds.1.1, holds.1.2, holds.2⟩
  · intro free
    exact ⟨⟨free.created, free.gained⟩, free.replaced⟩

end SchemaChange

namespace Target

variable {target : Target} {old new : Schema} {plan : MigrationPlan}

/-- The names of indexes stay apart while a plan runs exactly when no index takes the name of one
that is in force still. -/
theorem plan_keepsIndexNamesApart_iff (planned : target.plan old new = .ok plan)
    (apart : (new.indexNames target.capabilities.defaultSchema).Nodup) :
    target.statements (target.orderedActions old new) = .ok plan.statements ∧
      ((target.schemaChange old new).KeepsIndexNamesApart (target.orderedActions old new) ↔
        (target.schemaChange old new).IndexNamesFree target.capabilities) :=
  ⟨(plan_eq_ok_iff.mp planned).1, SchemaChange.keepsIndexNamesApart_orderedActions_iff apart⟩

end Target

/-! ## An example -/

namespace IndexNameExample

def slug : Column := { name := "slug", dataType := "text" }

def bySlug (table : String) (unique : Bool) : Index :=
  { name := "by_slug", table := .plain table, keys := [{ target := .column "slug" }], unique }

def drafts (indexes : List Index) : Table := { name := "drafts", columns := [slug], indexes }

def pages (indexes : List Index) : Table := { name := "pages", columns := [slug], indexes }

def old : Schema := { tables := [drafts [bySlug "drafts" false], pages []] }

def replaced : Schema := { tables := [drafts [bySlug "drafts" true], pages []] }

def moved : Schema := { tables := [drafts [], pages [bySlug "pages" false]] }

end IndexNameExample

open IndexNameExample in
/-- An index that changes on its table is dropped just before it is created. -/
theorem plan_keepsIndexNamesApart_pages :
    (old.indexNames "public").Nodup ∧ (replaced.indexNames "public").Nodup ∧
      ∃ plan, Target.plan ⟨Capabilities.postgres, {}⟩ old replaced = .ok plan ∧
        plan.statements.map (·.sql) =
          ["DROP INDEX by_slug", "CREATE UNIQUE INDEX by_slug ON drafts (slug)"] ∧
        SchemaChange.KeepsIndexNamesApart ⟨old, replaced, "public"⟩
          (Target.orderedActions ⟨Capabilities.postgres, {}⟩ old replaced) := by
  have apart : (replaced.indexNames "public").Nodup := by decide
  have succeeds : ∃ plan, Target.plan ⟨Capabilities.postgres, {}⟩ old replaced = .ok plan ∧
      plan.statements.map (·.sql) =
        ["DROP INDEX by_slug", "CREATE UNIQUE INDEX by_slug ON drafts (slug)"] := by
    decide +kernel
  rcases succeeds with ⟨plan, planned, texts⟩
  refine ⟨by decide, apart, plan, planned, texts,
    (Target.plan_keepsIndexNamesApart_iff planned apart).2.mpr ?_⟩
  have kept : (Target.schemaChange ⟨Capabilities.postgres, {}⟩ old replaced).keptTables =
    [⟨drafts [bySlug "drafts" false], drafts [bySlug "drafts" true]⟩, ⟨pages [], pages []⟩] := rfl
  constructor
  · exact List.forall_mem_nil _
  · rw [kept]
    refine List.forall_mem_cons.mpr ⟨fun _ => List.forall_mem_nil _, ?_⟩
    exact List.forall_mem_singleton.mpr fun _ => List.forall_mem_nil _
  · rw [kept]
    refine eachAfter_cons.mpr ⟨eachAfter_singleton.mpr ?_, eachAfter_singleton.mpr eachAfter_nil⟩
    intro held replaces _
    cases replaces
    exact .inl rfl

open IndexNameExample in
/-- An index that moves to another table is created there before it is dropped. -/
theorem plan_repeats_index_name_pages :
    (old.indexNames "public").Nodup ∧ (moved.indexNames "public").Nodup ∧
      ∃ plan, Target.plan ⟨Capabilities.postgres, {}⟩ old moved = .ok plan ∧
        plan.statements.map (·.sql) =
          ["CREATE INDEX by_slug ON pages (slug)", "DROP INDEX by_slug"] ∧
        ¬SchemaChange.KeepsIndexNamesApart ⟨old, moved, "public"⟩
          (Target.orderedActions ⟨Capabilities.postgres, {}⟩ old moved) :=
  ⟨by decide, by decide, _, rfl, by decide +kernel, by decide⟩

end SchemaDdl
