import SchemaDdl.Capability.BuiltIn
import SchemaDdl.Proofs.Plan.Constraints
import SchemaDdl.Proofs.Plan.Order
import SchemaDdl.Proofs.Precedence

/-!
# Foreign keys of columns that go

A column that a foreign key of another table refers to can be dropped only when the foreign key is
gone. Tables of both versions lose their columns and constraints in the order of the new version,
whatever refers to what, and old tables are dropped after that. The keys leave first exactly when
that order lets them, and no table that refers to such a column is dropped itself.
-/

namespace SchemaDdl

/-! ## Foreign keys of a table -/

structure HeldKey where
  name : String
  columns : List String
  table : QualifiedName
  referencedColumns : List String
deriving DecidableEq, Repr

def Table.heldKeys (table : Table) : List HeldKey :=
  (table.columns.filterMap fun column => column.references.map fun reference =>
      { name := ColumnConstraint.foreignKey.name table column
        columns := [column.name]
        table := reference.table
        referencedColumns := [reference.column] })
    ++ table.constraints.filterMap fun constraint => constraint.foreignKey?.map fun key =>
      { name := constraint.effectiveName table.name
        columns := key.columns
        table := key.table
        referencedColumns := key.referencedColumns }

/-- Whether an action removes a foreign key of a table: with the table, with a column of the key, or
the key itself. -/
def Action.RemovesKey (defaultSchema : String) (holder : QualifiedName) (key : HeldKey) :
    Action → Prop
  | .dropTable table => table.agrees defaultSchema holder = true
  | .dropColumn table column => table.agrees defaultSchema holder = true ∧ column ∈ key.columns
  | .dropConstraint table name _ => table.agrees defaultSchema holder = true ∧ name = key.name
  | .replaceConstraint table name _ _ =>
      table.qualifiedName.agrees defaultSchema holder = true ∧ name = key.name
  | _ => False

namespace TableChange

/-- Whether a foreign key of a table gives its place to something of its name, with a column or
alone. -/
def ReplacesKey (pair : TableChange) (key : HeldKey) : Prop :=
  (∃ column, pair.KeepsColumn column ∧ column.regenerates = true ∧
    column.new.name ∈ key.columns) ∨ pair.ReplacesConstraint key.name

def LosesKey (pair : TableChange) (key : HeldKey) : Prop :=
  (∃ column, pair.LosesColumn column ∧ column.name ∈ key.columns) ∨ pair.DropsConstraint key.name

end TableChange

namespace SchemaChange

def EachForeignKey (change : SchemaChange) (table : QualifiedName) (column : String)
    (holds : Table → HeldKey → Prop) : Prop :=
  ∀ holder ∈ change.old.tables, change.same holder.qualifiedName table = false →
    ∀ key ∈ holder.heldKeys, change.same key.table table = true →
      column ∈ key.referencedColumns → holds holder key

def KeyGone (change : SchemaChange) (actions : List Action) (holder : Table) (key : HeldKey) :
    Prop :=
  ∃ action ∈ actions, action.RemovesKey change.defaultSchema holder.qualifiedName key

/-- Whether earlier actions removed the foreign keys that refer to the column an action drops. -/
def KeysGone (change : SchemaChange) (earlier : List Action) : Action → Prop
  | .dropColumn table column => change.EachForeignKey table column (change.KeyGone earlier)
  | _ => True

def KeysLeaveFirst (change : SchemaChange) (actions : List Action) : Prop :=
  EachAfter change.KeysGone actions

def Holds (change : SchemaChange) (pair : TableChange) (holder : Table) : Prop :=
  change.same pair.new.qualifiedName holder.qualifiedName = true

/-- Whether the new version names tables in an order that lets the foreign keys leave first. What is
replaced leaves before all that is lost. -/
structure KeysLeaveInOrder (change : SchemaChange) : Prop where
  replaced : EachAfter (fun before pair =>
    ∀ column, pair.KeepsColumn column → column.regenerates = true →
      change.EachForeignKey pair.new.qualifiedName column.new.name fun holder key =>
        ∃ other ∈ before, change.Holds other holder ∧ other.ReplacesKey key) change.keptTables
  lost : EachAfter (fun before pair => ∀ column, pair.LosesColumn column →
      change.EachForeignKey pair.new.qualifiedName column.name fun holder key =>
        (∃ other ∈ change.keptTables, change.Holds other holder ∧ other.ReplacesKey key) ∨
          ∃ other ∈ before, change.Holds other holder ∧ other.LosesKey key) change.keptTables

end SchemaChange

/-! ## What the changes of a table remove -/

namespace TableChange

variable {change : TableChange} {capabilities : Capabilities} {comments : Bool} {phase : Phase}
  {table : QualifiedName} {name : String}

theorem not_dropColumn_mem_of_part {actions : List Action}
    (parts : ∀ action ∈ actions, changesPart action.operation = true) :
    (⟨phase, .dropColumn table name⟩ : PlanStep) ∉ actions.map .routed := by
  intro member
  rcases List.mem_map.mp member with ⟨action, actionMember, equal⟩
  cases equal
  cases parts _ actionMember

theorem dropColumn_mem_columnSteps_iff {column : ColumnChange} :
    ⟨phase, .dropColumn table name⟩ ∈ change.columnSteps comments column ↔
      column.regenerates = true ∧ phase = .modification ∧ table = change.new.qualifiedName ∧
        column.new.name = name := by
  unfold columnSteps
  cases regenerates : column.regenerates with
  | true =>
      rw [columnActions_of_regenerates regenerates]
      simp [eq_comm]
  | false =>
      simpa using not_dropColumn_mem_of_part (changesPart_of_mem_columnActions regenerates)

theorem dropColumn_mem_columnRemovals_iff :
    (⟨phase, .dropColumn table name⟩ : PlanStep) ∈
        (change.columnAdditions ++ change.columnRemovals).map .routed ↔
      phase = .removal ∧ table = change.new.qualifiedName ∧
        ∃ column, change.LosesColumn column ∧ column.name = name := by
  constructor
  · intro member
    rcases List.mem_map.mp member with ⟨action, member, equal⟩
    rcases List.mem_append.mp member with member | member
    · rcases List.mem_map.mp member with ⟨_, _, rfl⟩
      cases equal
    · rcases List.mem_map.mp member with ⟨column, removed, rfl⟩
      cases equal
      exact ⟨rfl, rfl, column, mem_removed.mp removed, rfl⟩
  · intro holds
    rcases holds with ⟨rfl, rfl, column, loses, rfl⟩
    refine List.mem_map.mpr ⟨.dropColumn change.new.qualifiedName column.name,
      List.mem_append_right _ ?_, rfl⟩
    exact List.mem_map.mpr ⟨column, mem_removed.mpr loses, rfl⟩

theorem dropColumn_mem_actionsIn_of_inPlace
    (inPlace : change.requiresRecreation capabilities = false) :
    .dropColumn table name ∈ actionsIn phase (change.steps capabilities comments) ↔
      ⟨phase, .dropColumn table name⟩ ∈ change.alterationSteps capabilities comments := by
  have indexes : ¬((⟨phase, .dropColumn table name⟩ : PlanStep) ∈ change.indexRemovals ∨
      (⟨phase, .dropColumn table name⟩ : PlanStep) ∈ change.indexAdditions) := by
    intro member
    rcases of_mem_indexSteps member with ⟨index, same | same⟩ <;> cases same
  rcases not_or.mp indexes with ⟨removals, additions⟩
  rw [mem_actionsIn, steps_of_inPlace inPlace, List.mem_append, List.mem_append,
    or_iff_right removals, or_iff_left additions]

theorem dropColumn_mem_actionsIn_iff (postgres : capabilities.family = .postgres) :
    .dropColumn table name ∈ actionsIn phase (change.steps capabilities comments) ↔
      table = change.new.qualifiedName ∧
        (phase = .removal ∧ (∃ column, change.LosesColumn column ∧ column.name = name) ∨
          phase = .modification ∧ ∃ column, change.KeepsColumn column ∧
            column.regenerates = true ∧ column.new.name = name) := by
  have inPlace : change.requiresRecreation capabilities = false := by
    simp only [requiresRecreation, postgres]
  rw [dropColumn_mem_actionsIn_of_inPlace inPlace, alterationSteps_eq postgres]
  simp only [List.mem_append, or_false, dropColumn_mem_columnRemovals_iff,
    not_dropColumn_mem_of_part changesPart_of_mem_tableActions, List.mem_flatMap,
    dropColumn_mem_columnSteps_iff]
  constructor
  · intro holds
    rcases holds with ⟨rfl, rfl, lost⟩ | ⟨column, altered, regenerates, rfl, rfl, named⟩
    · exact ⟨rfl, .inl ⟨rfl, lost⟩⟩
    · exact ⟨rfl, .inr ⟨rfl, column, (mem_altered.mp altered).1, regenerates, named⟩⟩
  · intro holds
    rcases holds with ⟨rfl, ⟨rfl, lost⟩ | ⟨rfl, column, keeps, regenerates, named⟩⟩
    · exact .inl ⟨rfl, rfl, lost⟩
    · have altered := mem_altered_of_regenerates keeps regenerates
      exact .inr ⟨column, altered, regenerates, rfl, rfl, named⟩

theorem dropConstraint_mem_actionsIn_iff (postgres : capabilities.family = .postgres) :
    (∃ subject, .dropConstraint table name subject ∈
        actionsIn phase (change.steps capabilities comments)) ↔
      table = change.new.qualifiedName ∧ phase = .removal ∧ change.DropsConstraint name := by
  constructor
  · intro holds
    rcases holds with ⟨subject, member⟩
    rcases (mem_actionsIn_steps_iff postgres rfl).mp member with ⟨changes, rfl⟩
    rcases of_mem_constraintActions changes with
      ⟨_, _, equal⟩ | ⟨_, _, equal⟩ | ⟨_, _, _, equal, _⟩
    · cases equal
    · cases equal
      exact ⟨rfl, rfl, exists_dropConstraint_iff.mp ⟨subject, changes⟩⟩
    · cases equal
  · intro holds
    rcases holds with ⟨rfl, rfl, drops⟩
    rcases exists_dropConstraint_iff.mpr drops with ⟨subject, member⟩
    exact ⟨subject, (mem_actionsIn_steps_iff postgres rfl).mpr ⟨member, rfl⟩⟩

theorem replaceConstraint_mem_actionsIn_iff (postgres : capabilities.family = .postgres)
    {holder : Table} :
    (∃ constraint subject, .replaceConstraint holder name constraint subject ∈
        actionsIn phase (change.steps capabilities comments)) ↔
      holder = change.new ∧ phase = .modification ∧ change.ReplacesConstraint name := by
  constructor
  · intro holds
    rcases holds with ⟨constraint, subject, member⟩
    rcases (mem_actionsIn_steps_iff postgres rfl).mp member with ⟨changes, rfl⟩
    rcases of_mem_constraintActions changes with
      ⟨_, _, equal⟩ | ⟨_, _, equal⟩ | ⟨_, _, _, equal, _⟩
    · cases equal
    · cases equal
    · cases equal
      exact ⟨rfl, rfl, exists_replaceConstraint_iff.mp ⟨constraint, subject, changes⟩⟩
  · intro holds
    rcases holds with ⟨rfl, rfl, replaces⟩
    rcases exists_replaceConstraint_iff.mpr replaces with ⟨constraint, subject, member⟩
    exact ⟨constraint, subject, (mem_actionsIn_steps_iff postgres rfl).mpr ⟨member, rfl⟩⟩

end TableChange

namespace SchemaChange

variable {change : SchemaChange} {capabilities : Capabilities} {comments : Bool} {phase : Phase}
  {actions others prior : List Action} {pair : TableChange} {holder : Table} {key : HeldKey}
  {table : QualifiedName} {column : String}

theorem keyGone_append :
    change.KeyGone (actions ++ others) holder key ↔
      change.KeyGone actions holder key ∨ change.KeyGone others holder key := by
  simp only [KeyGone, List.mem_append, or_and_right, exists_or]

theorem keyGone_flatMap {α : Type} {items : List α} {actionsOf : α → List Action} :
    change.KeyGone (items.flatMap actionsOf) holder key ↔
      ∃ item ∈ items, change.KeyGone (actionsOf item) holder key := by
  simp only [KeyGone, List.mem_flatMap]
  constructor
  · intro gone
    rcases gone with ⟨action, ⟨item, itemMember, member⟩, removes⟩
    exact ⟨item, itemMember, action, member, removes⟩
  · intro gone
    rcases gone with ⟨item, itemMember, action, member, removes⟩
    exact ⟨action, ⟨item, itemMember, member⟩, removes⟩

theorem keyGone_actionsIn_iff (postgres : capabilities.family = .postgres) :
    change.KeyGone (actionsIn phase (pair.steps capabilities comments)) holder key ↔
      change.Holds pair holder ∧ (phase = .modification ∧ pair.ReplacesKey key ∨
        phase = .removal ∧ pair.LosesKey key) := by
  constructor
  · intro gone
    rcases gone with ⟨action, member, removes⟩
    cases action with
    | dropTable name =>
        have alteration := TableChange.isAlteration_of_mem_steps _ (mem_actionsIn.mp member)
        exact absurd rfl alteration.notTableRemoval
    | dropColumn name column =>
        rcases (TableChange.dropColumn_mem_actionsIn_iff postgres).mp member with
          ⟨rfl, ⟨rfl, column, loses, rfl⟩ | ⟨rfl, column, keeps, regenerates, rfl⟩⟩
        · exact ⟨removes.1, .inr ⟨rfl, .inl ⟨column, loses, removes.2⟩⟩⟩
        · exact ⟨removes.1, .inl ⟨rfl, .inl ⟨column, keeps, regenerates, removes.2⟩⟩⟩
    | dropConstraint name constraint subject =>
        rcases (TableChange.dropConstraint_mem_actionsIn_iff postgres).mp ⟨subject, member⟩ with
          ⟨rfl, rfl, drops⟩
        exact ⟨removes.1, .inr ⟨rfl, .inr (removes.2 ▸ drops)⟩⟩
    | replaceConstraint table name constraint subject =>
        rcases (TableChange.replaceConstraint_mem_actionsIn_iff postgres).mp
          ⟨constraint, subject, member⟩ with ⟨rfl, rfl, replaces⟩
        exact ⟨removes.1, .inl ⟨rfl, .inr (removes.2 ▸ replaces)⟩⟩
    | _ => cases removes
  · intro holds
    rcases holds with ⟨same, ⟨rfl, ⟨column, keeps, regenerates, member⟩ | replaces⟩ |
      ⟨rfl, ⟨column, loses, member⟩ | drops⟩⟩
    · exact ⟨_, (TableChange.dropColumn_mem_actionsIn_iff postgres).mpr
        ⟨rfl, .inr ⟨rfl, column, keeps, regenerates, rfl⟩⟩, same, member⟩
    · rcases (TableChange.replaceConstraint_mem_actionsIn_iff postgres).mpr ⟨rfl, rfl, replaces⟩
        with ⟨constraint, subject, member⟩
      exact ⟨_, member, same, rfl⟩
    · exact ⟨_, (TableChange.dropColumn_mem_actionsIn_iff postgres).mpr
        ⟨rfl, .inl ⟨rfl, column, loses, rfl⟩⟩, same, member⟩
    · rcases (TableChange.dropConstraint_mem_actionsIn_iff postgres).mpr ⟨rfl, rfl, drops⟩ with
        ⟨subject, member⟩
      exact ⟨_, member, same, rfl⟩

theorem eachForeignKey_congr {holds other : Table → HeldKey → Prop}
    (same : ∀ holder key, change.same holder.qualifiedName table = false →
      (holds holder key ↔ other holder key)) :
    change.EachForeignKey table column holds ↔ change.EachForeignKey table column other :=
  forall₂_congr fun holder _ => forall_congr' fun apart => forall₂_congr fun key _ =>
    forall₂_congr fun _ _ => same holder key apart

/-! ## The order of removals -/

theorem eachAfter_keysGone_of_quiet {earlier : List Action → List Action}
    (quiet : ∀ action ∈ actions, action.operation ≠ .dropColumn) :
    EachAfter (fun before => change.KeysGone (earlier before)) actions := by
  intro before action after split
  have other := quiet action (split ▸ List.mem_append_right _ List.mem_cons_self)
  cases action with
  | dropColumn name column => exact absurd rfl other
  | _ => trivial

/-- The columns that tables of both versions drop in a phase count on what earlier phases removed
and on what the tables before them removed in the same phase. -/
theorem eachAfter_keptActions (postgres : capabilities.family = .postgres) :
    EachAfter (fun before => change.KeysGone (prior ++ before))
        (change.keptActions capabilities comments phase) ↔
      EachAfter (fun before pair => ∀ name,
        .dropColumn pair.new.qualifiedName name ∈
            actionsIn phase (pair.steps capabilities comments) →
          change.EachForeignKey pair.new.qualifiedName name fun holder key =>
            change.KeyGone prior holder key ∨ ∃ other ∈ before,
              change.KeyGone (actionsIn phase (other.steps capabilities comments)) holder key)
        change.keptTables := by
  refine eachAfter_flatMap.trans (eachAfter_congr fun before pair after split => ?_)
  refine Iff.trans (b := ∀ action ∈ actionsIn phase (pair.steps capabilities comments),
    change.KeysGone (prior ++ before.flatMap fun other =>
      actionsIn phase (other.steps capabilities comments)) action) ?_ ?_
  · refine eachAfter_iff_forall fun front members action member => ?_
    cases action with
    | dropColumn name column =>
        rcases (TableChange.dropColumn_mem_actionsIn_iff postgres).mp member with ⟨rfl, _⟩
        refine eachForeignKey_congr fun holder key apart => ?_
        -- What the table itself removes are its own keys.
        have other : ¬change.KeyGone front holder key := by
          intro gone
          rcases gone with ⟨action, frontMember, removes⟩
          have own := (keyGone_actionsIn_iff postgres).mp
            ⟨action, members action frontMember, removes⟩
          have same := QualifiedName.agrees_symm own.1
          rw [SchemaChange.same] at apart
          rw [apart] at same
          cases same
        rw [keyGone_append, keyGone_append, keyGone_append, or_iff_left other]
    | _ => exact Iff.rfl
  · simp only [← keyGone_flatMap, ← keyGone_append]
    constructor
    · intro each name member
      exact each _ member
    · intro each action member
      cases action with
      | dropColumn name column =>
          rcases (TableChange.dropColumn_mem_actionsIn_iff postgres).mp member with ⟨rfl, _⟩
          exact each column member
      | _ => trivial

theorem not_keyGone (quiet : ∀ action ∈ actions, action.operation ∉
      [.dropTable, .dropColumn, .dropConstraint, .replaceConstraint]) :
    ¬change.KeyGone actions holder key := by
  intro gone
  rcases gone with ⟨action, member, removes⟩
  have other := quiet action member
  cases action with
  | dropTable => simp [Action.operation] at other
  | dropColumn => simp [Action.operation] at other
  | dropConstraint => simp [Action.operation] at other
  | replaceConstraint => simp [Action.operation] at other
  | _ => cases removes

def actionsBeforeChanges (change : SchemaChange) (capabilities : Capabilities) (comments : Bool) :
    List Action :=
  actionsIn .creation (change.steps capabilities comments)
    ++ actionsIn .addition (change.steps capabilities comments)
    ++ change.creationOrder.flatMap (Table.completion capabilities comments)

theorem quiet_of_mem_actionsBeforeChanges :
    ∀ action ∈ change.actionsBeforeChanges capabilities comments, action.operation ∉
      [.dropTable, .dropColumn, .dropConstraint, .replaceConstraint] := by
  have early : ∀ {operation : Operation},
      operation.phase = .creation ∨ operation.phase = .addition → operation ∉
        [.dropTable, .dropColumn, .dropConstraint, .replaceConstraint] := by
    intro operation
    cases operation <;> decide
  refine List.forall_mem_append.mpr ⟨List.forall_mem_append.mpr ⟨?_, ?_⟩, ?_⟩
  · exact fun action member =>
      early (.inl (operation_phase_of_mem_actionsIn (by decide) action member))
  · exact fun action member =>
      early (.inr (operation_phase_of_mem_actionsIn (by decide) action member))
  · refine List.forall_mem_flatMap.mpr fun table _ action member => ?_
    rcases Table.of_mem_completion member with ⟨_, rfl⟩ | ⟨_, rfl⟩ | ⟨_, _, rfl⟩ <;>
      simp [Action.operation]

theorem not_dropColumn_of_mem_actionsBeforeChanges :
    ∀ action ∈ change.actionsBeforeChanges capabilities comments,
      action.operation ≠ .dropColumn :=
  fun action member drops => quiet_of_mem_actionsBeforeChanges action member (by rw [drops]; decide)

theorem not_dropColumn_of_mem_trailingSteps :
    ∀ action ∈ change.trailingSteps.map (·.action), action.operation ≠ .dropColumn := by
  refine List.forall_mem_map.mpr fun step member drops => ?_
  have trails := (operation_of_mem_trailingSteps member).1
  rw [drops] at trails
  revert trails
  decide

theorem not_dropColumn_of_mem_dropOrder :
    ∀ action ∈ change.dropOrder.map fun table => Action.dropTable table.qualifiedName,
      action.operation ≠ .dropColumn :=
  List.forall_mem_map.mpr fun _ _ => nofun

theorem orderedActions_eq_changes :
    orderedActions (change.steps capabilities comments) =
      change.actionsBeforeChanges capabilities comments
        ++ change.keptActions capabilities comments .modification
        ++ change.trailingSteps.map (·.action)
        ++ change.keptActions capabilities comments .removal
        ++ change.dropOrder.map fun table => Action.dropTable table.qualifiedName := by
  rw [orderedActions_eq, actionsIn_steps .modification, actionsIn_steps .removal,
    actionsIn_steps .tableRemoval, actionsBeforeChanges]
  simp only [List.append_assoc]

theorem keysLeaveFirst_iff (postgres : capabilities.family = .postgres) :
    change.KeysLeaveFirst (orderedActions (change.steps capabilities comments)) ↔
      change.KeysLeaveInOrder := by
  have trails : ∀ action ∈ change.trailingSteps.map (·.action), action.operation ∈
      [.createView, .createFunction, .createTrigger, .createPolicy] :=
    List.forall_mem_map.mpr fun step member => (operation_of_mem_trailingSteps member).1
  have before : ∀ holder key,
      ¬change.KeyGone (change.actionsBeforeChanges capabilities comments) holder key :=
    fun _ _ => not_keyGone quiet_of_mem_actionsBeforeChanges
  have trailing : ∀ holder key,
      ¬change.KeyGone (change.trailingSteps.map (·.action)) holder key := by
    refine fun _ _ => not_keyGone fun action member => ?_
    have trails := trails action member
    revert trails
    cases action.operation <;> decide
  rw [KeysLeaveFirst, orderedActions_eq_changes, eachAfter_append, eachAfter_append,
    eachAfter_append, eachAfter_append,
    and_iff_left (eachAfter_keysGone_of_quiet not_dropColumn_of_mem_dropOrder),
    and_iff_left (eachAfter_keysGone_of_quiet not_dropColumn_of_mem_trailingSteps),
    and_iff_right (eachAfter_keysGone_of_quiet not_dropColumn_of_mem_actionsBeforeChanges),
    eachAfter_keptActions postgres, eachAfter_keptActions postgres]
  simp only [keyGone_append, before, trailing, keptActions, keyGone_flatMap,
    keyGone_actionsIn_iff postgres, TableChange.dropColumn_mem_actionsIn_iff postgres, true_and,
    false_and, or_false, false_or, reduceCtorEq, forall_exists_index, and_imp]
  constructor
  · intro holds
    rcases holds with ⟨replaced, lost⟩
    exact ⟨fun before pair after split column keeps regenerates =>
        replaced before pair after split _ column keeps regenerates rfl,
      fun before pair after split column loses =>
        lost before pair after split _ column loses rfl⟩
  · intro ordered
    constructor
    · intro before pair after split name column keeps regenerates named
      exact named ▸ ordered.replaced before pair after split column keeps regenerates
    · intro before pair after split name column loses named
      exact named ▸ ordered.lost before pair after split column loses

end SchemaChange

namespace Target

variable {target : Target} {old new : Schema} {plan : MigrationPlan}

/-- A plan of the Postgres family removes the foreign keys of other tables to a column before it
drops the column exactly when the new version names its tables in an order that lets it. -/
theorem plan_keysLeaveFirst_iff (postgres : target.family = .postgres)
    (planned : target.plan old new = .ok plan) :
    target.statements (target.orderedActions old new) = .ok plan.statements ∧
      ((target.schemaChange old new).KeysLeaveFirst (target.orderedActions old new) ↔
        (target.schemaChange old new).KeysLeaveInOrder) :=
  ⟨(plan_eq_ok_iff.mp planned).1, SchemaChange.keysLeaveFirst_iff postgres⟩

end Target

/-! ## An example -/

namespace DepartureExample

def identity : Column := { name := "id", dataType := "integer" }

def code : Column := { name := "code", dataType := "text", unique := true }

def author : Column :=
  { name := "author", dataType := "text",
    references := some { table := .plain "users", column := "code" } }

def users : TableChange :=
  ⟨{ name := "users", columns := [identity, code] }, { name := "users", columns := [identity] }⟩

def pages : TableChange :=
  ⟨{ name := "pages", columns := [identity, author] }, { name := "pages", columns := [identity] }⟩

def old (pairs : List TableChange) : Schema :=
  { tables := pairs.map (·.old) }

def new (pairs : List TableChange) : Schema :=
  { tables := pairs.map (·.new) }

def dropCode : String := "ALTER TABLE users DROP COLUMN code"

def dropAuthor : String := "ALTER TABLE pages DROP COLUMN author"

end DepartureExample

open DepartureExample in
/-- The author leaves first where the pages are named first. -/
theorem plan_keysLeaveFirst_pages :
    ∃ plan, Target.plan ⟨Capabilities.postgres, {}⟩ (old [pages, users]) (new [pages, users]) =
        .ok plan ∧
      plan.statements.map (·.sql) = [dropAuthor, dropCode] ∧
      SchemaChange.KeysLeaveFirst ⟨old [pages, users], new [pages, users], "public"⟩
        (Target.orderedActions ⟨Capabilities.postgres, {}⟩ (old [pages, users])
          (new [pages, users])) := by
  have succeeds : ∃ plan, Target.plan ⟨Capabilities.postgres, {}⟩ (old [pages, users])
      (new [pages, users]) = .ok plan ∧ plan.statements.map (·.sql) = [dropAuthor, dropCode] := by
    decide +kernel
  rcases succeeds with ⟨plan, planned, texts⟩
  refine ⟨plan, planned, texts, (Target.plan_keysLeaveFirst_iff rfl planned).2.mpr ?_⟩
  have kept : (Target.schemaChange ⟨Capabilities.postgres, {}⟩ (old [pages, users])
      (new [pages, users])).keptTables = [pages, users] := rfl
  have plain : ∀ pair ∈ [pages, users], ∀ column ∈ pair.new.columns,
      column.isGenerated = false := by decide
  have keys : ∀ holder ∈ [pages.old, users.old], ∀ key ∈ holder.heldKeys,
      holder = pages.old ∧ key.table = .plain "users" ∧ key.columns = ["author"] := by
    intro holder member key keyMember
    rcases List.mem_pair.mp member with rfl | rfl
    · rw [List.mem_singleton.mp keyMember]
      exact ⟨rfl, rfl, rfl⟩
    · cases keyMember
  constructor
  · rw [kept]
    intro before pair after split column keeps regenerates
    have member : pair ∈ [pages, users] := split ▸ List.mem_append_right _ List.mem_cons_self
    rw [ColumnChange.regenerates, plain pair member _ keeps.1, Bool.and_false] at regenerates
    cases regenerates
  · rw [kept]
    refine eachAfter_cons.mpr ⟨?_, eachAfter_singleton.mpr ?_⟩
    · intro column _ holder member _ key keyMember refers
      rw [SchemaChange.same, (keys holder member key keyMember).2.1] at refers
      cases refers
    · intro column _ holder member _ key keyMember _ _
      rcases keys holder member key keyMember with ⟨rfl, _, columns⟩
      refine .inr ⟨pages, List.mem_cons_self, rfl, .inl ⟨author, ⟨?_, by decide⟩, ?_⟩⟩
      · exact List.mem_cons_of_mem _ List.mem_cons_self
      · rw [columns]
        exact List.mem_cons_self

open DepartureExample in
/-- The code is dropped before its foreign key where the users are named first. -/
theorem plan_drops_referenced_column_pages :
    ∃ plan, Target.plan ⟨Capabilities.postgres, {}⟩ (old [users, pages]) (new [users, pages]) =
        .ok plan ∧
      plan.statements.map (·.sql) = [dropCode, dropAuthor] ∧
      ¬SchemaChange.KeysLeaveFirst ⟨old [users, pages], new [users, pages], "public"⟩
        (Target.orderedActions ⟨Capabilities.postgres, {}⟩ (old [users, pages])
          (new [users, pages])) := by
  refine exists_ok_and_of (by decide +kernel) fun leave => ?_
  have actions : Target.orderedActions ⟨Capabilities.postgres, {}⟩ (old [users, pages])
      (new [users, pages]) =
        [] ++ .dropColumn (.plain "users") "code"
          :: [.dropColumn (.plain "pages") "author"] := rfl
  rcases leave _ _ _ actions pages.old (List.mem_cons_of_mem _ List.mem_cons_self) (by decide) _
    List.mem_cons_self (by decide) List.mem_cons_self with ⟨_, member, _⟩
  cases member

end SchemaDdl
