import SchemaDdl.Proofs.Plan.InPlace
import SchemaDdl.Proofs.Plan.Regeneration

/-!
# Indexes of columns that go

A dropped column takes the indexes on it with it, and an index that is gone cannot be dropped. A
table changed in place loses its indexes before its columns, but a column that is generated anew is
dropped among the changes in place, before all indexes that go. The indexes leave first exactly when
none of them is on such a column.
-/

namespace SchemaDdl

/-! ## Indexes and columns of a table -/

namespace TableChange

def RemovesIndex (pair : TableChange) (capabilities : Capabilities) (index : Index) : Prop :=
  pair.requiresRecreation capabilities = false ∧ index ∈ pair.old.indexes ∧
    ∀ other ∈ pair.new.indexes, other.name ≠ index.name

def ReplacesIndex (pair : TableChange) (capabilities : Capabilities) (index : Index) : Prop :=
  pair.requiresRecreation capabilities = false ∧
    ∃ other ∈ pair.new.indexes, pair.replacedIndex? other = some index

def RemovesColumn (pair : TableChange) (capabilities : Capabilities) (name : String) : Prop :=
  pair.requiresRecreation capabilities = false ∧
    ∃ column, pair.LosesColumn column ∧ column.name = name

def RegeneratesColumn (pair : TableChange) (capabilities : Capabilities) (name : String) : Prop :=
  pair.requiresRecreation capabilities = false ∧ pair.Replaces name

end TableChange

namespace SchemaChange

def EachIndex (change : SchemaChange) (table : QualifiedName) (column : String)
    (holds : Index → Prop) : Prop :=
  ∀ pair ∈ change.keptTables, change.same pair.new.qualifiedName table = true →
    ∀ index ∈ pair.old.indexes, index.Names column → holds index

def IndexesLeft (change : SchemaChange) : Action → List Action → Prop
  | .dropColumn table column, later =>
      change.EachIndex table column fun index => .dropIndex index ∉ later
  | _, _ => True

def IndexesLeaveFirst (change : SchemaChange) (actions : List Action) : Prop :=
  EachBefore change.IndexesLeft actions

/-- Whether indexes leave before their columns. The indexes of a table leave before the columns that
are gone, but after those that are generated anew. -/
structure IndexesLeaveInOrder (change : SchemaChange) (capabilities : Capabilities) : Prop where
  regenerated : EachBefore (fun pair later => ∀ column, pair.RegeneratesColumn capabilities column →
    change.EachIndex pair.new.qualifiedName column fun index =>
      (∀ other ∈ pair :: later, ¬other.ReplacesIndex capabilities index) ∧
        ∀ other ∈ change.keptTables, ¬other.RemovesIndex capabilities index) change.keptTables
  removed : EachBefore (fun pair later => ∀ column, pair.RemovesColumn capabilities column →
    change.EachIndex pair.new.qualifiedName column fun index =>
      ∀ other ∈ later, ¬other.RemovesIndex capabilities index) change.keptTables

end SchemaChange

/-! ## What the changes of a table drop -/

namespace TableChange

variable {pair : TableChange} {capabilities : Capabilities} {comments : Bool} {phase : Phase}
  {table : QualifiedName} {name : String} {index : Index}

theorem ReplacesIndex.mem (replaces : pair.ReplacesIndex capabilities index) :
    index ∈ pair.old.indexes := by
  rcases replaces.2 with ⟨_, _, replaced⟩
  exact List.mem_of_find?_eq_some (Option.filter_eq_some_iff.mp replaced).1

theorem not_regeneratesColumn_of_sqlite (sqlite : capabilities.family = .sqlite) :
    ¬pair.RegeneratesColumn capabilities name := by
  intro holds
  rcases holds with ⟨inPlace, column, keeps, regenerates, _⟩
  have structural : column.isStructural = true := ColumnChange.isStructural_of_isDestructive
    (ColumnChange.isDestructive_of_regenerates regenerates)
  have unaltered := (of_requiresRecreation_eq_false sqlite inPlace).1
  cases structural.symm.trans (unaltered column (mem_altered_of_regenerates keeps regenerates))

theorem alterationSteps_of_inPlace (sqlite : capabilities.family = .sqlite)
    (inPlace : pair.requiresRecreation capabilities = false) :
    pair.alterationSteps capabilities comments =
      (pair.columnAdditions ++ pair.columnRemovals).map .routed := by
  have sameKey := (of_requiresRecreation_eq_false sqlite inPlace).2.2.2.1
  rw [alterationSteps_eq_of_sqlite sqlite, actions_of_inPlace sqlite inPlace]
  simp [columnAdditions, addedColumn, sameKey]

theorem dropColumn_mem_actionsIn_steps_iff :
    .dropColumn table name ∈ actionsIn phase (pair.steps capabilities comments) ↔
      table = pair.new.qualifiedName ∧
        (phase = .removal ∧ pair.RemovesColumn capabilities name ∨
          phase = .modification ∧ pair.RegeneratesColumn capabilities name) := by
  cases rebuilt : pair.requiresRecreation capabilities with
  | true =>
      rw [mem_actionsIn, steps_of_requiresRecreation rebuilt]
      simp [PlanStep.routed, RemovesColumn, RegeneratesColumn, rebuilt]
  | false =>
      cases family : capabilities.family with
      | postgres =>
          rw [dropColumn_mem_actionsIn_iff family]
          simp [RemovesColumn, RegeneratesColumn, Replaces, rebuilt]
      | sqlite =>
          rw [dropColumn_mem_actionsIn_of_inPlace rebuilt,
            alterationSteps_of_inPlace family rebuilt, dropColumn_mem_columnRemovals_iff]
          simp only [not_regeneratesColumn_of_sqlite family, and_false, or_false, RemovesColumn,
            rebuilt, true_and]
          exact and_left_comm

theorem dropIndex_mem_indexAdditions_iff :
    (⟨phase, .dropIndex index⟩ : PlanStep) ∈ pair.indexAdditions ↔
      phase = .modification ∧
        ∃ other ∈ pair.new.indexes, pair.replacedIndex? other = some index := by
  have each : (phase = .modification ∧
      ∃ other ∈ pair.new.indexes, pair.replacedIndex? other = some index) ↔
        ∃ other ∈ pair.new.indexes,
          phase = .modification ∧ pair.replacedIndex? other = some index := by
    simp only [← exists_and_left, and_left_comm]
  rw [each, indexAdditions, List.mem_flatMap]
  refine exists_congr fun other => and_congr_right fun _ => ?_
  unfold replacedIndex?
  cases pair.old.indexes.find? (·.name == other.name) with
  | none => simp [PlanStep.routed]
  | some held =>
      by_cases same : held = other
      · simp [same, Option.filter]
      · have fills : index = held ↔ held = index := eq_comm
        simp [same, Option.filter, fills]

theorem dropIndex_mem_actionsIn_iff :
    .dropIndex index ∈ actionsIn phase (pair.steps capabilities comments) ↔
      phase = .removal ∧ pair.RemovesIndex capabilities index ∨
        phase = .modification ∧ pair.ReplacesIndex capabilities index := by
  cases rebuilt : pair.requiresRecreation capabilities with
  | true =>
      rw [mem_actionsIn, steps_of_requiresRecreation rebuilt]
      simp [PlanStep.routed, RemovesIndex, ReplacesIndex, rebuilt]
  | false =>
      have altered : .dropIndex index ∉
          actionsIn phase (pair.alterationSteps capabilities comments) := by
        intro member
        cases SchemaChange.quiet_of_mem_actionsIn_alterationSteps rebuilt _ member
      have removed : .dropIndex index ∈ actionsIn phase pair.indexRemovals ↔
          phase = .removal ∧ pair.RemovesIndex capabilities index := by
        rw [SchemaChange.actionsIn_indexRemovals, RemovesIndex, and_iff_right rebuilt]
        split
        · rename_i removal
          rw [and_iff_right removal.symm]
          simp
        · rename_i other
          exact iff_of_false List.not_mem_nil fun holds => other holds.1.symm
      rw [steps_of_inPlace rebuilt, actionsIn_append, actionsIn_append, List.mem_append,
        List.mem_append, or_iff_left altered, removed, mem_actionsIn,
        dropIndex_mem_indexAdditions_iff, ReplacesIndex, and_iff_right rebuilt]

theorem inPlace_of_dropColumn {before after : List Action}
    (split : actionsIn phase (pair.steps capabilities comments) =
      before ++ .dropColumn table name :: after) :
    pair.requiresRecreation capabilities = false := by
  have member : .dropColumn table name ∈ actionsIn phase (pair.steps capabilities comments) :=
    split ▸ List.mem_append_right _ List.mem_cons_self
  rcases (dropColumn_mem_actionsIn_steps_iff.mp member).2 with ⟨_, removes⟩ | ⟨_, regenerates⟩
  · exact removes.1
  · exact regenerates.1

theorem dropIndex_mem_after_modification_iff {before after : List Action}
    (split : actionsIn .modification (pair.steps capabilities comments) =
      before ++ .dropColumn table name :: after) :
    .dropIndex index ∈ after ↔ pair.ReplacesIndex capabilities index := by
  have inPlace := inPlace_of_dropColumn split
  have dropped : .dropIndex index ∈ actionsIn .modification (pair.steps capabilities comments) ↔
      pair.ReplacesIndex capabilities index := by
    simp [dropIndex_mem_actionsIn_iff]
  rw [← dropped]
  constructor
  · intro later
    rw [split]
    exact List.mem_append_right _ (List.mem_cons_of_mem _ later)
  · intro member
    rw [SchemaChange.modifications_of_inPlace inPlace] at member split
    have elsewhere : .dropColumn table name ∉
        pair.new.indexes.flatMap (SchemaChange.replacementActions pair) := by
      intro columnMember
      rcases List.mem_flatMap.mp columnMember with ⟨_, _, columnMember⟩
      rcases List.mem_flatMap.mp columnMember with ⟨_, _, columnMember⟩
      rcases List.mem_pair.mp columnMember with equal | equal <;> cases equal
    rcases exists_append_of_not_mem split elsewhere with ⟨middle, rfl⟩
    rcases List.mem_append.mp member with early | late
    · cases SchemaChange.quiet_of_mem_actionsIn_alterationSteps inPlace _ early
    · exact List.mem_append_right _ late

theorem not_dropIndex_mem_after_removal {before after : List Action}
    (split : actionsIn .removal (pair.steps capabilities comments) =
      before ++ .dropColumn table name :: after) : .dropIndex index ∉ after := by
  have inPlace := inPlace_of_dropColumn split
  have altered : ∀ action ∈ actionsIn .removal (pair.alterationSteps capabilities comments)
      ++ actionsIn .removal pair.indexAdditions, action ≠ .dropIndex index := by
    refine List.forall_mem_append.mpr ⟨fun action member drops => ?_, fun action member drops => ?_⟩
    · cases SchemaChange.quiet_of_mem_actionsIn_alterationSteps inPlace _ (drops ▸ member)
    · cases (dropIndex_mem_indexAdditions_iff.mp (mem_actionsIn.mp (drops ▸ member))).1
  have ordered : EachBefore (fun action later => action.operation = .dropColumn →
      .dropIndex index ∉ later) (actionsIn .removal (pair.steps capabilities comments)) := by
    rw [steps_of_inPlace inPlace, actionsIn_append, actionsIn_append, List.append_assoc]
    refine eachBefore_append.mpr ⟨eachBefore_of_forall fun action member later drops => ?_, ?_⟩
    · rw [SchemaChange.actionsIn_indexRemovals, if_pos rfl] at member
      rcases List.mem_map.mp member with ⟨_, _, rfl⟩
      cases drops
    · intro before action later split _ member
      refine altered _ ?_ rfl
      rw [split]
      exact List.mem_append_right _ (List.mem_cons_of_mem _ member)
  exact ordered _ _ _ split rfl

end TableChange

/-! ## A whole plan -/

namespace SchemaChange

variable {change : SchemaChange} {capabilities : Capabilities} {comments : Bool} {phase : Phase}
  {actions rest : List Action} {table : QualifiedName} {column : String} {index : Index}

theorem eachIndex_congr {holds other : Index → Prop} (same : ∀ index, holds index ↔ other index) :
    change.EachIndex table column holds ↔ change.EachIndex table column other :=
  forall₂_congr fun _ _ => forall_congr' fun _ => forall₂_congr fun index _ =>
    forall_congr' fun _ => same index

theorem eachBefore_indexesLeft_of_quiet {later : List Action → List Action}
    (quiet : ∀ action ∈ actions, action.operation ≠ .dropColumn) :
    EachBefore (fun action after => change.IndexesLeft action (later after)) actions := by
  refine eachBefore_of_forall fun action member after => ?_
  have other := quiet action member
  cases action with
  | dropColumn name column => exact absurd rfl other
  | _ => trivial

/-- The columns that tables of both versions drop in a phase count on what their own table drops
after its columns, on the tables after it and on later phases. -/
theorem eachBefore_keptActions (own : TableChange → Index → Prop)
    (drops : ∀ {pair : TableChange} {before after : List Action} {table : QualifiedName}
      {column : String}, actionsIn phase (pair.steps capabilities comments) =
        before ++ .dropColumn table column :: after →
      ∀ index, .dropIndex index ∈ after ↔ own pair index) :
    EachBefore (fun action after => change.IndexesLeft action (after ++ rest))
        (change.keptActions capabilities comments phase) ↔
      EachBefore (fun pair later => ∀ column, .dropColumn pair.new.qualifiedName column ∈
          actionsIn phase (pair.steps capabilities comments) →
        change.EachIndex pair.new.qualifiedName column fun index => ¬own pair index ∧
          (∀ other ∈ later,
            .dropIndex index ∉ actionsIn phase (other.steps capabilities comments)) ∧
          .dropIndex index ∉ rest) change.keptTables := by
  refine eachBefore_flatMap.trans (eachBefore_congr fun _ pair later _ => ?_)
  constructor
  · intro each column member
    rcases List.append_of_mem member with ⟨before, after, split⟩
    refine (eachIndex_congr fun index => ?_).mp (each before _ after split)
    simp [drops split, not_or]
  · intro each before action after split
    have member : action ∈ actionsIn phase (pair.steps capabilities comments) :=
      split ▸ List.mem_append_right _ List.mem_cons_self
    cases action with
    | dropColumn name column =>
        cases (TableChange.dropColumn_mem_actionsIn_steps_iff.mp member).1
        refine (eachIndex_congr fun index => ?_).mpr (each column member)
        simp [drops split, not_or]
    | _ => trivial

theorem indexesLeaveFirst_iff :
    change.IndexesLeaveFirst (orderedActions (change.steps capabilities comments)) ↔
      change.IndexesLeaveInOrder capabilities := by
  have trailing : ∀ index, .dropIndex index ∉ change.trailingSteps.map (·.action) := by
    intro index member
    rcases List.mem_map.mp member with ⟨step, stepMember, drops⟩
    have trails := (operation_of_mem_trailingSteps stepMember).1
    rw [drops] at trails
    simp [Action.operation] at trails
  have dropped : ∀ index, .dropIndex index ∉
      change.dropOrder.map fun table => Action.dropTable table.qualifiedName := by
    intro index member
    rcases List.mem_map.mp member with ⟨_, _, equal⟩
    cases equal
  rw [IndexesLeaveFirst, orderedActions_eq_changes]
  simp only [List.append_assoc]
  rw [eachBefore_append,
    and_iff_right (eachBefore_indexesLeft_of_quiet not_dropColumn_of_mem_actionsBeforeChanges),
    eachBefore_append, eachBefore_append,
    and_iff_right (eachBefore_indexesLeft_of_quiet not_dropColumn_of_mem_trailingSteps),
    eachBefore_append,
    and_iff_left (eachBefore_indexesLeft_of_quiet not_dropColumn_of_mem_dropOrder),
    eachBefore_keptActions (fun pair => pair.ReplacesIndex capabilities) fun split _ =>
      TableChange.dropIndex_mem_after_modification_iff split,
    eachBefore_keptActions (fun _ _ => False) fun split _ =>
      iff_false_intro (TableChange.not_dropIndex_mem_after_removal split)]
  simp only [List.mem_append, trailing, dropped, keptActions, List.mem_flatMap,
    TableChange.dropIndex_mem_actionsIn_iff, TableChange.dropColumn_mem_actionsIn_steps_iff,
    true_and, false_and, or_false, false_or, reduceCtorEq, not_false_eq_true, and_true, not_exists,
    not_and]
  constructor
  · intro ordered
    exact ⟨by simpa only [List.forall_mem_cons, and_assoc] using ordered.1, ordered.2⟩
  · intro ordered
    exact ⟨by simpa only [List.forall_mem_cons, and_assoc] using ordered.regenerated,
      ordered.removed⟩

/-- Where tables have names and indexes of their own, the indexes leave first exactly when none that
goes is on a column of its table that is generated anew. -/
theorem indexesLeaveInOrder_iff (apart : change.new.NamesApart change.defaultSchema)
    (own : ∀ pair ∈ change.keptTables, ∀ other ∈ change.keptTables, ∀ index ∈ pair.old.indexes,
      index ∈ other.old.indexes → pair = other) :
    change.IndexesLeaveInOrder capabilities ↔
      ∀ pair ∈ change.keptTables, ∀ column, pair.RegeneratesColumn capabilities column →
        ∀ index ∈ pair.old.indexes, index.Names column →
          ¬pair.ReplacesIndex capabilities index ∧ ¬pair.RemovesIndex capabilities index := by
  have names : Apart (fun left right : TableChange =>
      change.same left.new.qualifiedName right.new.qualifiedName) change.keptTables :=
    pairwise_keptTables apart
  have holder : ∀ pair ∈ change.keptTables, ∀ other ∈ change.keptTables,
      change.same other.new.qualifiedName pair.new.qualifiedName = true → other = pair :=
    fun pair member other otherMember =>
      names.eq_of_same (fun _ _ => QualifiedName.agrees_symm) otherMember member
  constructor
  · intro ordered pair member column regenerates index indexMember on
    rcases List.append_of_mem member with ⟨before, later, split⟩
    have gone := ordered.regenerated before pair later split column regenerates pair member
      (QualifiedName.agrees_self _) index indexMember on
    exact ⟨gone.1 pair List.mem_cons_self, gone.2 pair member⟩
  · intro stay
    have mem : ∀ {before pair later}, change.keptTables = before ++ pair :: later →
        ∀ other ∈ pair :: later, other ∈ change.keptTables :=
      fun split other member => split ▸ List.mem_append_right _ member
    constructor
    · intro before pair later split column regenerates other otherMember same index indexMember on
      have member := mem split pair List.mem_cons_self
      cases holder pair member other otherMember same
      have stays := stay pair member column regenerates index indexMember on
      constructor
      · intro other otherMember replaces
        cases own pair member other (mem split other otherMember) index indexMember replaces.mem
        exact stays.1 replaces
      · intro other otherMember removes
        cases own pair member other otherMember index indexMember removes.2.1
        exact stays.2 removes
    · intro before pair later split column _ other otherMember same index indexMember _ last
        lastMember removes
      have member := mem split pair List.mem_cons_self
      cases holder pair member other otherMember same
      cases own pair member last (mem split last (List.mem_cons_of_mem _ lastMember)) index
        indexMember removes.2.1
      have later : ∀ other ∈ later, change.same pair.new.qualifiedName other.new.qualifiedName =
          false := by
        have pairwise := names
        rw [split] at pairwise
        exact (List.pairwise_cons.mp (List.pairwise_append.mp pairwise).2.1).1
      cases (later pair lastMember).symm.trans (QualifiedName.agrees_self _)

end SchemaChange

namespace Target

variable {target : Target} {old new : Schema} {plan : MigrationPlan}

/-- A plan drops the indexes of tables of both versions before the columns that they name exactly
when the order of its phases lets it. -/
theorem plan_indexesLeaveFirst_iff (planned : target.plan old new = .ok plan) :
    target.statements (target.orderedActions old new) = .ok plan.statements ∧
      ((target.schemaChange old new).IndexesLeaveFirst (target.orderedActions old new) ↔
        (target.schemaChange old new).IndexesLeaveInOrder target.capabilities) :=
  ⟨(plan_eq_ok_iff.mp planned).1, SchemaChange.indexesLeaveFirst_iff⟩

end Target

/-! ## An example -/

namespace IndexDepartureExample

def title : Column := { name := "title", dataType := "text" }

def legacy : Column := { name := "legacy", dataType := "text" }

def slug (expression : String) : Column :=
  { name := "slug", dataType := "text", generated := some { expression } }

def on (name column : String) : Index :=
  { name, table := .plain "pages", keys := [{ target := .column column }] }

def pages (columns : List Column) (indexes : List Index) : Table where
  name := "pages"
  columns := columns
  indexes := indexes

def tidied : TableChange where
  old := pages [title, legacy, slug "lower(title)"] [on "by_legacy" "legacy", on "by_slug" "slug"]
  new := pages [title, slug "upper(title)"] [on "by_slug" "slug"]

def unindexed : TableChange where
  old := pages [title, slug "lower(title)"] [on "by_slug" "slug"]
  new := pages [title, slug "upper(title)"] []

def old (pair : TableChange) : Schema :=
  { tables := [pair.old] }

def new (pair : TableChange) : Schema :=
  { tables := [pair.new] }

end IndexDepartureExample

open IndexDepartureExample in
/-- The index of a column that is gone is dropped before it. -/
theorem plan_indexesLeaveFirst_pages :
    ∃ plan, Target.plan ⟨Capabilities.postgres, {}⟩ (old tidied) (new tidied) = .ok plan ∧
      plan.statements.map (·.operation) = [.dropColumn, .addColumn, .dropIndex, .dropColumn] ∧
      SchemaChange.IndexesLeaveFirst ⟨old tidied, new tidied, "public"⟩
        (Target.orderedActions ⟨Capabilities.postgres, {}⟩ (old tidied) (new tidied)) := by
  have succeeds : ∃ plan, Target.plan ⟨Capabilities.postgres, {}⟩ (old tidied) (new tidied) =
      .ok plan ∧
      plan.statements.map (·.operation) = [.dropColumn, .addColumn, .dropIndex, .dropColumn] := by
    decide +kernel
  rcases succeeds with ⟨plan, planned, operations⟩
  refine ⟨plan, planned, operations, (Target.plan_indexesLeaveFirst_iff planned).2.mpr ?_⟩
  have kept : (Target.schemaChange ⟨Capabilities.postgres, {}⟩ (old tidied)
      (new tidied)).keptTables = [tidied] := rfl
  have apart : (new tidied).NamesApart "public" := List.pairwise_singleton _ _
  refine (SchemaChange.indexesLeaveInOrder_iff apart ?_).mpr ?_
  · rw [kept]
    intro pair member other otherMember _ _ _
    rw [List.mem_singleton.mp member, List.mem_singleton.mp otherMember]
  · rw [kept]
    refine List.forall_mem_singleton.mpr fun column regenerates index member names => ?_
    have only : column = "slug" := by
      rcases regenerates.2 with ⟨change, keeps, anew, rfl⟩
      rcases List.mem_pair.mp keeps.1 with same | same
      · rw [ColumnChange.regenerates, same, Bool.and_eq_true] at anew
        cases anew.2
      · rw [same]
        rfl
    cases only
    rcases List.mem_pair.mp member with rfl | rfl
    · rcases names with key | stored
      · exact absurd key (by decide)
      · cases stored
    · refine ⟨fun replaces => ?_, fun removes => removes.2.2 _ List.mem_cons_self rfl⟩
      rcases replaces.2 with ⟨_, otherMember, replaced⟩
      cases List.mem_singleton.mp otherMember
      revert replaced
      decide

open IndexDepartureExample in
/-- The index of a column that is generated anew is dropped after the column that took it along. -/
theorem plan_takes_index_with_column_pages :
    ∃ plan, Target.plan ⟨Capabilities.postgres, {}⟩ (old unindexed) (new unindexed) = .ok plan ∧
      plan.statements.map (·.sql) = ["ALTER TABLE pages DROP COLUMN slug",
        "ALTER TABLE pages ADD COLUMN slug text GENERATED ALWAYS AS (upper(title)) STORED",
        "DROP INDEX by_slug"] ∧
      ¬SchemaChange.IndexesLeaveFirst ⟨old unindexed, new unindexed, "public"⟩
        (Target.orderedActions ⟨Capabilities.postgres, {}⟩ (old unindexed) (new unindexed)) := by
  refine exists_ok_and_of (by decide +kernel) fun leave => ?_
  have actions : Target.orderedActions ⟨Capabilities.postgres, {}⟩ (old unindexed) (new unindexed) =
      [] ++ .dropColumn (.plain "pages") "slug"
        :: [.addColumn unindexed.new (slug "upper(title)") true,
          .dropIndex (on "by_slug" "slug")] := rfl
  have later := leave _ _ _ actions unindexed List.mem_cons_self (by decide) _ List.mem_cons_self
    (.inl List.mem_cons_self)
  exact later (List.mem_cons_of_mem _ List.mem_cons_self)

end SchemaDdl
