import SchemaDdl.Capability.BuiltIn
import SchemaDdl.Proofs.Plan.Additions
import SchemaDdl.Proofs.Plan.Dependency
import SchemaDdl.Proofs.Plan.Parts
import SchemaDdl.Proofs.Precedence

/-!
# Foreign keys and the columns they refer to

New tables come in the order of their references, but tables of both versions are altered in the
order of the new version, and only after all tables are created. Where a foreign key refers to a
column that the same plan adds to a table of both versions, the column may be added too late. The
keys follow their columns exactly when the new version names its tables and columns in an order that
makes them do so.
-/

namespace SchemaDdl

/-! ## Columns before keys -/

def TableChange.GainsTarget (defaultSchema : String) (change : TableChange) (target : KeyTarget) :
    Prop :=
  change.new.qualifiedName.agrees defaultSchema target.table = true ∧
    ∃ column, change.GainsColumn column ∧ column.name = target.column

namespace SchemaChange

def EachGaining (change : SchemaChange) (target : KeyTarget) (holds : TableChange → Prop) : Prop :=
  ∀ gaining ∈ change.keptTables, gaining.GainsTarget change.defaultSchema target → holds gaining

/-- Whether the columns that foreign keys of an action refer to are added by earlier actions, as far
as tables of both versions get them. -/
def KeysFollow (change : SchemaChange) (earlier : List Action) (carrier : Action) : Prop :=
  ∀ target ∈ carrier.keyTargets,
    change.EachGaining target fun gaining => gaining.AddedBy target.column earlier

def KeysFollowColumns (change : SchemaChange) (actions : List Action) : Prop :=
  EachAfter change.KeysFollow actions

/-- Whether the new columns of a table refer only to what tables before it get and to new columns
before them. -/
def ColumnsFollow (change : SchemaChange) (before : List TableChange) (pair : TableChange) : Prop :=
  EachAfter (fun front column => ∀ target ∈ column.keyTargets,
    change.EachGaining target fun gaining =>
      gaining ∈ before ∨ gaining = pair ∧ ∃ other ∈ front, other.name = target.column) pair.added

/-- Whether the other new foreign keys of a table refer only to what tables before it and the table
itself get. -/
def ConstraintsFollow (change : SchemaChange) (before : List TableChange) (pair : TableChange) :
    Prop :=
  ∀ target, pair.GainsKey target →
    change.EachGaining target fun gaining => gaining ∈ before ∨ gaining = pair

/-- Whether the new version names the columns that tables get before the foreign keys to them. -/
structure ColumnsPrecedeKeys (change : SchemaChange) : Prop where
  created : ∀ table ∈ change.createdTables, ∀ target ∈ table.keyTargets,
    change.EachGaining target fun _ => False
  columns : EachAfter change.ColumnsFollow change.keptTables
  constraints : EachAfter change.ConstraintsFollow change.keptTables

/-! ## The order of additions -/

variable {change : SchemaChange} {capabilities : Capabilities} {comments : Bool}
  {prior : List Action} {before : List TableChange} {pair gaining : TableChange}
  {target : KeyTarget}

theorem eachGaining_congr {holds other : TableChange → Prop}
    (same : ∀ gaining ∈ change.keptTables, gaining.GainsTarget change.defaultSchema target →
      (holds gaining ↔ other gaining)) :
    change.EachGaining target holds ↔ change.EachGaining target other :=
  forall₂_congr fun gaining kept => forall_congr' fun gains => same gaining kept gains

theorem eq_of_mem_keptTables (kept : pair ∈ change.keptTables)
    (otherKept : gaining ∈ change.keptTables) (same : pair.new = gaining.new) : pair = gaining := by
  have held := (mem_keptTables.mp kept).2
  rw [same, (mem_keptTables.mp otherKept).2] at held
  cases pair
  cases gaining
  cases same
  cases held
  rfl

theorem eq_iff_of_mem_keptTables (kept : pair ∈ change.keptTables)
    (otherKept : gaining ∈ change.keptTables) : pair.new = gaining.new ↔ pair = gaining :=
  ⟨eq_of_mem_keptTables kept otherKept, congrArg _⟩

theorem eachAfter_keysFollow_iff {actions : List Action} {earlier : List Action → List Action}
    {holds : KeyTarget → TableChange → Prop}
    (same : ∀ later, (∀ action ∈ later, action ∈ actions) → ∀ target,
      ∀ gaining ∈ change.keptTables, gaining.GainsTarget change.defaultSchema target →
        (gaining.AddedBy target.column (earlier later) ↔ holds target gaining)) :
    EachAfter (fun later => change.KeysFollow (earlier later)) actions ↔
      ∀ target, (∃ action ∈ actions, target ∈ action.keyTargets) →
        change.EachGaining target (holds target) := by
  refine Iff.trans (b := ∀ action ∈ actions, ∀ target ∈ action.keyTargets,
    change.EachGaining target (holds target)) (eachAfter_iff_forall fun later members action _ =>
      forall₂_congr fun target _ => eachGaining_congr (same later members target)) ?_
  constructor
  · intro each target refers
    rcases refers with ⟨action, member, refers⟩
    exact each action member target refers
  · intro each action member target refers
    exact each target ⟨action, member, refers⟩

theorem addedBy_keptAdditions (postgres : capabilities.family = .postgres)
    (members : ∀ pair ∈ before, pair ∈ change.keptTables) (kept : gaining ∈ change.keptTables)
    (gains : gaining.GainsTarget change.defaultSchema target) :
    gaining.AddedBy target.column
        (before.flatMap fun pair => actionsIn .addition (pair.steps capabilities comments)) ↔
      gaining ∈ before := by
  constructor
  · intro added
    rcases added with ⟨column, again, member, name⟩
    rcases List.mem_flatMap.mp member with ⟨pair, pairMember, member⟩
    have same := ((TableChange.addedBy_additions postgres).mp ⟨column, again, member, name⟩).1
    rw [eq_of_mem_keptTables kept (members pair pairMember) same]
    exact pairMember
  · intro member
    rcases gains.2 with ⟨column, gainsColumn, name⟩
    have added : gaining.AddedBy target.column
        (actionsIn .addition (gaining.steps capabilities comments)) :=
      (TableChange.addedBy_additions postgres).mpr
        ⟨rfl, column, TableChange.mem_added.mpr gainsColumn, name⟩
    rcases added with ⟨held, again, added, heldName⟩
    exact ⟨held, again, List.mem_flatMap.mpr ⟨gaining, member, added⟩, heldName⟩

section

variable (postgres : capabilities.family = .postgres)
  (quiet : ∀ action ∈ prior, action.operation ≠ .addColumn)
  (members : ∀ pair ∈ before, pair ∈ change.keptTables)

include postgres quiet members

theorem addedBy_prior (kept : gaining ∈ change.keptTables)
    (gains : gaining.GainsTarget change.defaultSchema target) {front : List Action} :
    gaining.AddedBy target.column (prior ++ (before.flatMap
        (fun pair => actionsIn .addition (pair.steps capabilities comments)) ++ front)) ↔
      gaining ∈ before ∨ gaining.AddedBy target.column front := by
  rw [TableChange.addedBy_append, TableChange.addedBy_append,
    or_iff_right (TableChange.not_addedBy quiet), addedBy_keptAdditions postgres members kept gains]

theorem eachAfter_columnAdditions (kept : pair ∈ change.keptTables) :
    EachAfter (fun front => change.KeysFollow (prior ++ (before.flatMap
        (fun pair => actionsIn .addition (pair.steps capabilities comments)) ++ front)))
        pair.columnAdditions ↔
      change.ColumnsFollow before pair := by
  rw [TableChange.columnAdditions, eachAfter_map]
  refine eachAfter_congr fun front column _ _ => ?_
  rw [KeysFollow, Action.keyTargets, TableChange.keyTargets_addedColumn]
  refine forall₂_congr fun target _ => eachGaining_congr fun gaining gainingKept gains => ?_
  rw [addedBy_prior postgres quiet members gainingKept gains, TableChange.addedBy_map,
    eq_iff_of_mem_keptTables gainingKept kept]

theorem eachAfter_partAdditions (kept : pair ∈ change.keptTables) {shown : Bool} :
    EachAfter (fun later => change.KeysFollow (prior ++ (before.flatMap
        (fun pair => actionsIn .addition (pair.steps capabilities comments))
          ++ (pair.columnAdditions ++ later))))
        (pair.partAdditions capabilities shown) ↔
      change.ConstraintsFollow before pair := by
  refine (eachAfter_keysFollow_iff fun later parts target gaining gainingKept gains => ?_).trans
    (forall_congr' fun target => imp_congr_left TableChange.exists_mem_partAdditions)
  have quietParts : ¬gaining.AddedBy target.column later := TableChange.not_addedBy
    fun action member => TableChange.operation_of_mem_partAdditions (parts action member)
  rw [addedBy_prior postgres quiet members gainingKept gains, TableChange.addedBy_append,
    or_iff_left quietParts, TableChange.columnAdditions, TableChange.addedBy_map,
    eq_iff_of_mem_keptTables gainingKept kept]
  refine or_congr_right (and_iff_left_of_imp fun same => ?_)
  rcases gains.2 with ⟨column, gainsColumn, name⟩
  exact ⟨column, TableChange.mem_added.mpr (same ▸ gainsColumn), name⟩

end

theorem eachAfter_later (postgres : capabilities.family = .postgres)
    {actions : List Action} :
    EachAfter (fun later => change.KeysFollow
      (prior ++ change.keptActions capabilities comments .addition ++ later)) actions := by
  intro later carrier _ _ target _ gaining kept gains
  have added : gaining.AddedBy target.column (change.keptActions capabilities comments .addition) :=
    (addedBy_keptAdditions postgres (fun _ member => member) kept gains).mpr kept
  exact TableChange.addedBy_append.mpr (.inl (TableChange.addedBy_append.mpr (.inr added)))

def leadingActions (change : SchemaChange) : List Action :=
  change.leadingSteps.map (·.action) ++ change.creationOrder.map .createTable
    ++ (change.creationOrder.flatMap (·.indexes)).map .createIndex

theorem not_carries_of_leads {operation : Operation}
    (leads : operation ∈ [.createExtension, .createType, .createSequence]) :
    operation ∉ [Operation.createTable, .addColumn, .addConstraint, .replaceConstraint] := by
  revert leads
  cases operation <;> decide

theorem operation_of_mem_leadingActions {action : Action}
    (member : action ∈ change.leadingActions) : action.operation ≠ .addColumn := by
  rcases List.mem_append.mp member with member | member
  · rcases List.mem_append.mp member with member | member
    · rcases List.mem_map.mp member with ⟨step, stepMember, rfl⟩
      intro adds
      refine not_carries_of_leads (of_mem_leadingSteps stepMember).2 ?_
      rw [adds]
      decide
    · rcases List.mem_map.mp member with ⟨table, _, rfl⟩
      nofun
  · rcases List.mem_map.mp member with ⟨index, _, rfl⟩
    nofun

theorem exists_mem_leadingActions :
    (∃ action ∈ change.leadingActions, target ∈ action.keyTargets) ↔
      ∃ table ∈ change.createdTables, target ∈ table.keyTargets := by
  constructor
  · intro refers
    rcases refers with ⟨action, member, refers⟩
    rcases List.mem_append.mp member with member | member
    · rcases List.mem_append.mp member with member | member
      · rcases List.mem_map.mp member with ⟨step, stepMember, rfl⟩
        exact absurd (Action.operation_of_mem_keyTargets refers)
          (not_carries_of_leads (of_mem_leadingSteps stepMember).2)
      · rcases List.mem_map.mp member with ⟨table, tableMember, rfl⟩
        exact ⟨table, mem_inDependencyOrder.mp tableMember, refers⟩
    · rcases List.mem_map.mp member with ⟨index, _, rfl⟩
      cases refers
  · intro refers
    rcases refers with ⟨table, member, refers⟩
    have created : table ∈ change.creationOrder := mem_inDependencyOrder.mpr member
    exact ⟨.createTable table,
      List.mem_append_left _ (List.mem_append_right _ (List.mem_map_of_mem created)), refers⟩

theorem eachAfter_leadingActions :
    EachAfter change.KeysFollow change.leadingActions ↔
      ∀ table ∈ change.createdTables, ∀ target ∈ table.keyTargets,
        change.EachGaining target fun _ => False := by
  refine (eachAfter_keysFollow_iff fun earlier members target gaining _ _ =>
    iff_of_false (TableChange.not_addedBy fun action member =>
      operation_of_mem_leadingActions (members action member)) not_false).trans ?_
  simp only [exists_mem_leadingActions, forall_exists_index, and_imp]
  exact ⟨fun each table member target refers => each target table member refers,
    fun each target table member refers => each table member target refers⟩

theorem keysFollowColumns_iff (postgres : capabilities.family = .postgres) :
    change.KeysFollowColumns (orderedActions (change.steps capabilities comments)) ↔
      change.ColumnsPrecedeKeys := by
  have additions : EachAfter (fun earlier => change.KeysFollow (change.leadingActions ++ earlier))
      (change.keptActions capabilities comments .addition) ↔
        EachAfter change.ColumnsFollow change.keptTables ∧
          EachAfter change.ConstraintsFollow change.keptTables := by
    refine eachAfter_flatMap.trans ((eachAfter_congr fun before pair after split => ?_).trans
      eachAfter_and)
    have members : ∀ pair ∈ before, pair ∈ change.keptTables :=
      fun _ member => split ▸ List.mem_append_left _ member
    have kept : pair ∈ change.keptTables := split ▸ List.mem_append_right _ List.mem_cons_self
    have quiet : ∀ action ∈ change.leadingActions, action.operation ≠ .addColumn :=
      fun _ => operation_of_mem_leadingActions
    rw [TableChange.additions_steps postgres, eachAfter_append]
    exact and_congr (eachAfter_columnAdditions postgres quiet members kept)
      (eachAfter_partAdditions postgres quiet members kept)
  have whole : orderedActions (change.steps capabilities comments) =
      change.leadingActions ++ change.keptActions capabilities comments .addition
        ++ (actionsIn .modification (change.steps capabilities comments)
          ++ actionsIn .removal (change.steps capabilities comments)
          ++ actionsIn .tableRemoval (change.steps capabilities comments)) := by
    rw [orderedActions_eq, actionsIn_steps .creation, actionsIn_steps .addition, leadingActions]
    simp only [List.append_assoc]
  -- All columns are added before the later phases, which ask nothing of the order.
  rw [KeysFollowColumns, whole, eachAfter_append, eachAfter_append,
    and_iff_left (eachAfter_later postgres), eachAfter_leadingActions, additions]
  constructor
  · intro holds
    exact ⟨holds.1, holds.2.1, holds.2.2⟩
  · intro precede
    exact ⟨precede.created, precede.columns, precede.constraints⟩

end SchemaChange

namespace Target

variable {target : Target} {old new : Schema} {plan : MigrationPlan}

/-- A plan of the Postgres family adds columns before the foreign keys that refer to them exactly
when the new version names them in an order that lets it. -/
theorem plan_keysFollowColumns_iff (postgres : target.family = .postgres)
    (planned : target.plan old new = .ok plan) :
    target.statements (target.orderedActions old new) = .ok plan.statements ∧
      ((target.schemaChange old new).KeysFollowColumns (target.orderedActions old new) ↔
        (target.schemaChange old new).ColumnsPrecedeKeys) :=
  ⟨(plan_eq_ok_iff.mp planned).1, SchemaChange.keysFollowColumns_iff postgres⟩

end Target

/-! ## An example -/

namespace KeyExample

def identity : Column := { name := "id", dataType := "integer" }

def code : Column := { name := "code", dataType := "text", unique := true }

def author : Column :=
  { name := "author", dataType := "text",
    references := some { table := .plain "users", column := "code" } }

def users : TableChange :=
  ⟨{ name := "users", columns := [identity] }, { name := "users", columns := [identity, code] }⟩

def pages : TableChange :=
  ⟨{ name := "pages", columns := [identity] }, { name := "pages", columns := [identity, author] }⟩

def old (pairs : List TableChange) : Schema :=
  { tables := pairs.map (·.old) }

def new (pairs : List TableChange) : Schema :=
  { tables := pairs.map (·.new) }

def addCode : String := "ALTER TABLE users ADD COLUMN code text UNIQUE"

def addAuthor : String := "ALTER TABLE pages ADD COLUMN author text REFERENCES users (code)"

end KeyExample

open KeyExample in
/-- The code is added first where the users are named first. -/
theorem plan_keysFollowColumns_pages :
    ∃ plan, Target.plan ⟨Capabilities.postgres, {}⟩ (old [users, pages]) (new [users, pages]) =
        .ok plan ∧
      plan.statements.map (·.sql) = [addCode, addAuthor] ∧
      SchemaChange.KeysFollowColumns ⟨old [users, pages], new [users, pages], "public"⟩
        (Target.orderedActions ⟨Capabilities.postgres, {}⟩ (old [users, pages])
          (new [users, pages])) := by
  have succeeds : ∃ plan, Target.plan ⟨Capabilities.postgres, {}⟩ (old [users, pages])
      (new [users, pages]) = .ok plan ∧ plan.statements.map (·.sql) = [addCode, addAuthor] := by
    decide +kernel
  rcases succeeds with ⟨plan, planned, texts⟩
  refine ⟨plan, planned, texts, (Target.plan_keysFollowColumns_iff rfl planned).2.mpr ?_⟩
  have kept : (Target.schemaChange ⟨Capabilities.postgres, {}⟩ (old [users, pages])
      (new [users, pages])).keptTables = [users, pages] := rfl
  have noKeys : ∀ pair ∈ [users, pages], ∀ target, ¬pair.GainsKey target := by
    have quiet : ∀ pair ∈ [users, pages], pair.partAdditions Capabilities.postgres true = [] := by
      decide
    intro pair member target gains
    rcases TableChange.exists_mem_partAdditions.mpr gains with ⟨action, actionMember, _⟩
    rw [quiet pair member] at actionMember
    cases actionMember
  have onlyUsers : ∀ target ∈ author.keyTargets, ∀ pair ∈ [users, pages],
      pair.GainsTarget "public" target → pair ∈ [users] := by
    intro target refers pair member gains
    rw [List.mem_singleton.mp refers] at gains
    rcases List.mem_pair.mp member with rfl | rfl
    · exact List.mem_cons_self
    · cases gains.1
  constructor
  · exact List.forall_mem_nil _
  · rw [kept]
    refine eachAfter_cons.mpr ⟨?_, eachAfter_singleton.mpr ?_⟩
    · exact eachAfter_singleton.mpr (List.forall_mem_nil _)
    · exact eachAfter_singleton.mpr fun target refers pair member gains =>
        .inl (onlyUsers target refers pair member gains)
  · rw [kept]
    intro before pair after split target gains
    exact absurd gains (noKeys pair (split ▸ List.mem_append_right _ List.mem_cons_self) target)

open KeyExample in
/-- The foreign key comes before its column where the pages are named first. -/
theorem plan_key_before_column_pages :
    ∃ plan, Target.plan ⟨Capabilities.postgres, {}⟩ (old [pages, users]) (new [pages, users]) =
        .ok plan ∧
      plan.statements.map (·.sql) = [addAuthor, addCode] ∧
      ¬SchemaChange.KeysFollowColumns ⟨old [pages, users], new [pages, users], "public"⟩
        (Target.orderedActions ⟨Capabilities.postgres, {}⟩ (old [pages, users])
          (new [pages, users])) := by
  refine exists_ok_and_of (by decide +kernel) fun follow => ?_
  have actions : Target.orderedActions ⟨Capabilities.postgres, {}⟩ (old [pages, users])
      (new [pages, users]) =
        [] ++ .addColumn pages.new author false :: [.addColumn users.new code false] := rfl
  have gains : users.GainsTarget "public" ⟨.plain "users", "code"⟩ :=
    ⟨by decide, code, ⟨List.mem_cons_of_mem _ List.mem_cons_self, by decide⟩, rfl⟩
  rcases follow _ _ _ actions ⟨.plain "users", "code"⟩ List.mem_cons_self users
    (List.mem_cons_of_mem _ List.mem_cons_self) gains with ⟨_, _, member, _⟩
  cases member

end SchemaDdl
