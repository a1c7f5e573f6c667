import Mathlib.Data.List.Forall2
import SchemaDdl.Proofs.Plan.ConstraintNames

/-!
# The columns that alter a table

On the Postgres family every column of either version of a table has its share of the statements:
one adds it, one drops it, both replace it, or its own changes stand together, and nothing else does
the same to it.
-/

namespace SchemaDdl

/-! ## Statements about one object -/

namespace Statement

def IsOf (statement : Statement) (operation : Operation) (object : String) : Prop :=
  statement.operation = operation ∧ statement.affected = [object]

/-- How many of some statements do something to an object. -/
def count (statements : List Statement) (operation : Operation) (object : String) : Nat :=
  statements.countP fun statement =>
    statement.operation == operation && statement.affected.contains object

end Statement

namespace Target

variable {target : Target} {actions : List Action} {written : List Statement}

theorem map_affected_of_statements (done : target.statements actions = .ok written) :
    written.map (·.affected) = actions.map (·.affected) := by
  rw [statements_eq_ok_iff] at done
  induction done with
  | nil => rfl
  | cons headDone _ induction =>
      rw [List.map_cons, List.map_cons, induction, affected_of_statement headDone]

theorem forall₂_isOf_of_statements {α : Type} {items : List α} {actionOf : α → Action}
    {operation : Operation} {object : α → String}
    (operations : ∀ item, (actionOf item).operation = operation)
    (objects : ∀ item, (actionOf item).affected = [object item])
    (done : target.statements (items.map actionOf) = .ok written) :
    List.Forall₂ (fun item statement => statement.IsOf operation (object item)) items written := by
  refine (List.forall₂_map_left_iff.mp (statements_eq_ok_iff.mp done)).imp ?_
  intro item statement statementOk
  exact ⟨(operation_of_statement statementOk).trans (operations item),
    (affected_of_statement statementOk).trans (objects item)⟩

theorem exists_blocks_of_statements {α : Type} {items : List α} {actionsOf : α → List Action}
    (done : target.statements (items.flatMap actionsOf) = .ok written) :
    ∃ blocks, written = blocks.flatten ∧
      List.Forall₂ (fun item block => target.statements (actionsOf item) = .ok block) items
        blocks := by
  induction items generalizing written with
  | nil =>
      cases done
      exact ⟨[], rfl, .nil⟩
  | cons item items induction =>
      rw [List.flatMap_cons, statements_append_eq_ok_iff] at done
      rcases done with ⟨block, rest, rfl, blockOk, restOk⟩
      rcases induction restOk with ⟨blocks, rfl, related⟩
      exact ⟨block :: blocks, rfl, .cons blockOk related⟩

end Target

/-! ## Columns that are added and dropped -/

namespace TableChange

variable {change : TableChange} {name : String}

/-- Whether a column of a name is added: it is new, or it takes the place of the one that was. -/
def AddsColumn (change : TableChange) (name : String) : Prop :=
  (∃ column, change.GainsColumn column ∧ column.name = name) ∨ change.Replaces name

def DropsColumn (change : TableChange) (name : String) : Prop :=
  (∃ column, change.LosesColumn column ∧ column.name = name) ∨ change.Replaces name

def regeneratedNames (change : TableChange) : List String :=
  (change.altered.filter (·.regenerates)).map (·.new.name)

theorem mem_regeneratedNames : name ∈ change.regeneratedNames ↔ change.Replaces name := by
  simp only [regeneratedNames, List.mem_map, List.mem_filter]
  constructor
  · intro holds
    rcases holds with ⟨pair, ⟨altered, regenerates⟩, named⟩
    exact ⟨pair, (mem_altered.mp altered).1, regenerates, named⟩
  · intro replaces
    rcases replaces with ⟨pair, keeps, regenerates, named⟩
    exact ⟨pair, ⟨mem_altered_of_regenerates keeps regenerates, regenerates⟩, named⟩

theorem mem_added_append_regeneratedNames :
    name ∈ change.added.map (·.name) ++ change.regeneratedNames ↔ change.AddsColumn name := by
  simp only [List.mem_append, List.mem_map, mem_added, mem_regeneratedNames, AddsColumn]

theorem mem_removed_append_regeneratedNames :
    name ∈ change.removed.map (·.name) ++ change.regeneratedNames ↔ change.DropsColumn name := by
  simp only [List.mem_append, List.mem_map, mem_removed, mem_regeneratedNames, DropsColumn]

theorem nodup_regeneratedNames (distinct : (change.new.columns.map (·.name)).Nodup) :
    change.regeneratedNames.Nodup := by
  have kept : change.regeneratedNames.Sublist ((change.altered.map (·.new)).map (·.name)) := by
    rw [List.map_map]
    exact List.filter_sublist.map _
  exact (kept.trans (map_new_altered_sublist.map _)).nodup distinct

theorem nodup_added_append_regeneratedNames (distinct : (change.new.columns.map (·.name)).Nodup) :
    (change.added.map (·.name) ++ change.regeneratedNames).Nodup := by
  refine List.nodup_append.mpr ⟨(List.filter_sublist.map _).nodup distinct,
    nodup_regeneratedNames distinct, ?_⟩
  intro name added other replaced same
  rcases List.mem_map.mp added with ⟨column, member, rfl⟩
  rcases mem_regeneratedNames.mp replaced with ⟨pair, keeps, _, named⟩
  exact (mem_added.mp member).2 pair.old keeps.old_mem
    (keeps.old_name.trans (named.trans same.symm))

theorem nodup_removed_append_regeneratedNames
    (oldDistinct : (change.old.columns.map (·.name)).Nodup)
    (newDistinct : (change.new.columns.map (·.name)).Nodup) :
    (change.removed.map (·.name) ++ change.regeneratedNames).Nodup := by
  refine List.nodup_append.mpr ⟨(List.filter_sublist.map _).nodup oldDistinct,
    nodup_regeneratedNames newDistinct, ?_⟩
  intro name removed other replaced same
  rcases List.mem_map.mp removed with ⟨column, member, rfl⟩
  rcases mem_regeneratedNames.mp replaced with ⟨pair, keeps, _, named⟩
  exact (mem_removed.mp member).2 pair.new keeps.1 (named.trans same.symm)

/-! ## The actions for columns -/

variable {capabilities : Capabilities} {comments : Bool} {operation : Operation}

theorem affected_of_mem_columnActions {pair : ColumnChange} :
    ∀ action ∈ change.columnActions comments pair,
      action.affected = [Action.columnPath change.new.qualifiedName pair.new.name] := by
  have constraints : ∀ action ∈ [ColumnConstraint.unique, .foreignKey, .check].flatMap
      (ColumnConstraint.actions change.old change.new pair),
        action.affected = [Action.columnPath change.new.qualifiedName pair.new.name] := by
    intro action member
    rcases List.mem_flatMap.mp member with ⟨constraint, _, member⟩
    rcases (ColumnConstraint.mem_actions_iff.mp member).2 with
      ⟨_, _, rfl⟩ | ⟨_, _, _, rfl⟩ | ⟨_, _, _, rfl⟩ <;> rfl
  have identity : ∀ action ∈ change.identityActions pair,
      action.affected = [Action.columnPath change.new.qualifiedName pair.new.name] := by
    intro action member
    rcases exists_of_mem_identityActions action member with ⟨kind, rfl⟩
    rfl
  cases regenerates : pair.regenerates with
  | true =>
      rw [columnActions_of_regenerates regenerates]
      simp [Action.affected]
  | false =>
      unfold columnActions
      rw [regenerates]
      simp only [Bool.false_eq_true, if_false, List.forall_mem_append, forall_mem_actionIf]
      exact ⟨⟨⟨⟨⟨⟨fun _ => rfl, fun _ => rfl⟩, fun _ => rfl⟩, identity⟩, fun _ => rfl⟩,
        constraints⟩, fun _ => rfl⟩

section

variable (whole : operation = .addColumn ∨ operation = .dropColumn)

include whole

theorem filter_eq_nil_of_changesPart {actions : List Action}
    (parts : ∀ action ∈ actions, changesPart action.operation = true) :
    actions.filter (·.operation == operation) = [] := by
  refine List.filter_eq_nil_iff.mpr fun action member same => ?_
  rcases operation_ne_of_changesPart (parts action member) with ⟨notAdded, notDropped⟩
  rcases whole with rfl | rfl
  · exact notAdded (beq_iff_eq.mp same)
  · exact notDropped (beq_iff_eq.mp same)

theorem affected_filter_columnActions (pairs : List ColumnChange) :
    ((pairs.flatMap (change.columnActions comments)).filter
        (·.operation == operation)).map (·.affected) =
      (pairs.filter (·.regenerates)).map fun pair =>
        [Action.columnPath change.new.qualifiedName pair.new.name] := by
  induction pairs with
  | nil => rfl
  | cons pair pairs induction =>
      rw [List.flatMap_cons, List.filter_append, List.map_append, induction]
      cases regenerates : pair.regenerates with
      | true =>
          rw [columnActions_of_regenerates regenerates, List.filter_cons_of_pos regenerates]
          rcases whole with rfl | rfl <;> rfl
      | false =>
          rw [filter_eq_nil_of_changesPart whole (changesPart_of_mem_columnActions regenerates),
            List.filter_cons_of_neg (by simp [regenerates])]
          rfl

end

theorem affected_filter_actions (postgres : capabilities.family = .postgres) :
    ((change.actions capabilities comments).filter (·.operation == .addColumn)).map (·.affected) =
        (change.added.map (·.name) ++ change.regeneratedNames).map
          (fun name => [Action.columnPath change.new.qualifiedName name]) ∧
      ((change.actions capabilities comments).filter
          (·.operation == .dropColumn)).map (·.affected) =
        (change.removed.map (·.name) ++ change.regeneratedNames).map
          fun name => [Action.columnPath change.new.qualifiedName name] := by
  have rest (operation : Operation) (whole : operation = .addColumn ∨ operation = .dropColumn) :
      (change.tableActions capabilities (comments && capabilities.supports .comments)).filter
        (·.operation == operation) = [] :=
    filter_eq_nil_of_changesPart whole changesPart_of_mem_tableActions
  have additions : change.columnAdditions.filter (·.operation == .addColumn) =
      change.columnAdditions :=
    List.filter_eq_self.mpr (List.forall_mem_map.mpr fun _ _ => rfl)
  have noRemovals : change.columnRemovals.filter (·.operation == .addColumn) = [] :=
    List.filter_eq_nil_iff.mpr (List.forall_mem_map.mpr fun _ _ => nofun)
  have noAdditions : change.columnAdditions.filter (·.operation == .dropColumn) = [] :=
    List.filter_eq_nil_iff.mpr (List.forall_mem_map.mpr fun _ _ => nofun)
  have removals : change.columnRemovals.filter (·.operation == .dropColumn) =
      change.columnRemovals :=
    List.filter_eq_self.mpr (List.forall_mem_map.mpr fun _ _ => rfl)
  simp only [actions_of_postgres postgres, List.filter_append, List.map_append, additions,
    noRemovals, noAdditions, removals, rest _ (.inl rfl), rest _ (.inr rfl),
    affected_filter_columnActions (.inl rfl), affected_filter_columnActions (.inr rfl)]
  simp [columnAdditions, columnRemovals, regeneratedNames, Action.affected, name_addedColumn,
    Function.comp_def]

/-! ## Statements for columns -/

theorem count_eq_ite {table : QualifiedName} {names : List String} {statements : List Statement}
    (distinct : names.Nodup)
    (objects : (statements.filter (·.operation == operation)).map (·.affected) =
      names.map fun name => [Action.columnPath table name]) :
    Statement.count statements operation (Action.columnPath table name) =
      if name ∈ names then 1 else 0 := by
  have counted : Statement.count statements operation (Action.columnPath table name) =
      ((statements.filter (·.operation == operation)).map (·.affected)).countP
        (·.contains (Action.columnPath table name)) := by
    rw [List.countP_map, List.countP_filter]
    exact List.countP_congr fun statement _ => by simp [and_comm]
  rw [counted, objects, List.countP_map, ← distinct.count]
  exact List.countP_congr fun other _ => by simpa [columnPath_inj] using eq_comm

/-- The statements for a column of both versions: all of them are about this column, and either they
drop it and add it again, or they do neither. -/
structure ChangesColumn (change : TableChange) (pair : ColumnChange) (block : List Statement) :
    Prop where
  affected : ∀ statement ∈ block,
    statement.affected = [Action.columnPath change.new.qualifiedName pair.new.name]
  replaces : pair.regenerates = true → block.map (·.operation) = [.dropColumn, .addColumn]
  inPlace : pair.regenerates = false →
    ∀ statement ∈ block, statement.operation ≠ .addColumn ∧ statement.operation ≠ .dropColumn

def ChangesRest (change : TableChange) (statement : Statement) : Prop :=
  statement.operation ∈ [.addConstraint, .dropConstraint, .replaceConstraint] ∨
    statement.operation ∈ [.tableSettings, .comment] ∧
      statement.affected = [change.new.qualifiedName.text]

/-- Statements that add columns in the order of the new version, then drop some in the order of the
old one, then change those of both versions, and then what is left of the table. -/
inductive InColumnOrder (change : TableChange) : List Statement → Prop
  | of {additions removals rest : List Statement} {blocks : List (List Statement)}
      (added : List.Forall₂ (fun column statement => statement.IsOf .addColumn
        (Action.columnPath change.new.qualifiedName column.name)) change.added additions)
      (removed : List.Forall₂ (fun column statement => statement.IsOf .dropColumn
        (Action.columnPath change.new.qualifiedName column.name)) change.removed removals)
      (changed : List.Forall₂ change.ChangesColumn change.altered blocks)
      (others : ∀ statement ∈ rest, change.ChangesRest statement) :
      InColumnOrder change (additions ++ removals ++ blocks.flatten ++ rest)

/-- How statements treat the columns of a table: they add and drop each as often as they have to and
change nothing about those that stay as they are. -/
structure CoversColumns (change : TableChange) (statements : List Statement) : Prop where
  added : ∀ name, change.AddsColumn name →
    Statement.count statements .addColumn (Action.columnPath change.new.qualifiedName name) = 1
  notAdded : ∀ name, ¬change.AddsColumn name →
    Statement.count statements .addColumn (Action.columnPath change.new.qualifiedName name) = 0
  dropped : ∀ name, change.DropsColumn name →
    Statement.count statements .dropColumn (Action.columnPath change.new.qualifiedName name) = 1
  notDropped : ∀ name, ¬change.DropsColumn name →
    Statement.count statements .dropColumn (Action.columnPath change.new.qualifiedName name) = 0
  altered : ∀ statement ∈ statements, statement.operation = .alterColumn →
    ∃ pair, change.KeepsColumn pair ∧ pair.isChange = true ∧
      statement.affected = [Action.columnPath change.new.qualifiedName pair.new.name]
  ordered : change.InColumnOrder statements

theorem InColumnOrder.exists_altered {statements : List Statement} {statement : Statement}
    (ordered : change.InColumnOrder statements) (member : statement ∈ statements)
    (alters : statement.operation = .alterColumn) :
    ∃ pair ∈ change.altered,
      statement.affected = [Action.columnPath change.new.qualifiedName pair.new.name] := by
  cases ordered with
  | of added removed changed others =>
      simp only [List.mem_append, List.mem_flatten] at member
      rcases member with ((member | member) | ⟨block, blockMember, member⟩) | member
      · rcases exists_of_forall₂ added member with ⟨_, _, adds, _⟩
        exact nomatch alters.symm.trans adds
      · rcases exists_of_forall₂ removed member with ⟨_, _, removes, _⟩
        exact nomatch alters.symm.trans removes
      · rcases exists_of_forall₂ changed blockMember with ⟨pair, pairMember, changes⟩
        exact ⟨pair, pairMember, changes.affected statement member⟩
      · have apart := others statement member
        simp [ChangesRest, alters] at apart

end TableChange

namespace Target

variable {target : Target} {change : TableChange} {statements : List Statement}

theorem changesColumn_of_statements {pair : ColumnChange} {comments : Bool}
    (done : target.statements (change.columnActions comments pair) = .ok statements) :
    change.ChangesColumn pair statements where
  affected := by
    intro statement member
    rcases exists_item_of_mapM done member with ⟨action, actionMember, statementOk⟩
    exact (affected_of_statement statementOk).trans
      (TableChange.affected_of_mem_columnActions action actionMember)
  replaces := by
    intro regenerates
    rw [map_operation_of_statements done, TableChange.columnActions_of_regenerates regenerates]
    rfl
  inPlace := by
    intro inPlace statement member
    rcases exists_item_of_mapM done member with ⟨action, actionMember, statementOk⟩
    rw [operation_of_statement statementOk]
    exact TableChange.operation_ne_of_changesPart
      (TableChange.changesPart_of_mem_columnActions inPlace action actionMember)

theorem changesRest_of_statements {capabilities : Capabilities} {comments : Bool}
    (done : target.statements (change.tableActions capabilities comments) = .ok statements) :
    ∀ statement ∈ statements, change.ChangesRest statement := by
  intro statement member
  rcases exists_item_of_mapM done member with ⟨action, actionMember, statementOk⟩
  unfold TableChange.ChangesRest
  rw [operation_of_statement statementOk, affected_of_statement statementOk]
  cases TableChange.AltersRest.of_mem_tableActions action actionMember <;>
    simp [Action.operation, Action.affected]

theorem inColumnOrder_of_alterTable (postgres : target.family = .postgres)
    (written : target.alterTable change = .ok statements) : change.InColumnOrder statements := by
  unfold alterTable at written
  rw [TableChange.actions_of_postgres postgres] at written
  rcases statements_append_eq_ok_iff.mp written with ⟨_, rest, rfl, columnsOk, restOk⟩
  rcases statements_append_eq_ok_iff.mp columnsOk with ⟨_, _, rfl, wholeOk, changesOk⟩
  rcases statements_append_eq_ok_iff.mp wholeOk with ⟨additions, removals, rfl, addedOk, removedOk⟩
  rcases exists_blocks_of_statements changesOk with ⟨blocks, rfl, blocksOk⟩
  refine .of ?_ ?_ (blocksOk.imp fun _ _ => changesColumn_of_statements)
    (changesRest_of_statements restOk)
  · refine forall₂_isOf_of_statements (fun _ => rfl) (fun column => ?_) addedOk
    rw [Action.affected, TableChange.name_addedColumn]
  · exact forall₂_isOf_of_statements (fun _ => rfl) (fun _ => rfl) removedOk

/-- Where the columns of each version have names of their own, the statements that alter a table on
the Postgres family leave no column out and treat none twice. -/
theorem alterTable_coversColumns (postgres : target.family = .postgres)
    (oldDistinct : (change.old.columns.map (·.name)).Nodup)
    (newDistinct : (change.new.columns.map (·.name)).Nodup)
    (written : target.alterTable change = .ok statements) : change.CoversColumns statements := by
  have ordered := inColumnOrder_of_alterTable postgres written
  have sameOperation : ∀ (operation : Operation) (action : Action) (statement : Statement),
      target.statement action = .ok statement →
        (statement.operation == operation) = (action.operation == operation) := by
    intro operation action statement statementOk
    rw [operation_of_statement statementOk]
  rcases @TableChange.affected_filter_actions change target.capabilities target.options.comments
    postgres with ⟨added, dropped⟩
  rw [← map_affected_of_statements (statements_filter (sameOperation .addColumn) written)] at added
  rw [← map_affected_of_statements (statements_filter (sameOperation .dropColumn) written)]
    at dropped
  have addedCount (name : String) :
      Statement.count statements .addColumn (Action.columnPath change.new.qualifiedName name) =
        if name ∈ change.added.map (·.name) ++ change.regeneratedNames then 1 else 0 :=
    TableChange.count_eq_ite (TableChange.nodup_added_append_regeneratedNames newDistinct) added
  have droppedCount (name : String) :
      Statement.count statements .dropColumn (Action.columnPath change.new.qualifiedName name) =
        if name ∈ change.removed.map (·.name) ++ change.regeneratedNames then 1 else 0 :=
    TableChange.count_eq_ite
      (TableChange.nodup_removed_append_regeneratedNames oldDistinct newDistinct) dropped
  refine ⟨fun name adds => ?_, fun name keeps => ?_, fun name drops => ?_, fun name keeps => ?_,
    fun statement member alters => ?_, ordered⟩
  · rw [addedCount, if_pos (TableChange.mem_added_append_regeneratedNames.mpr adds)]
  · rw [addedCount, if_neg (TableChange.mem_added_append_regeneratedNames.not.mpr keeps)]
  · rw [droppedCount, if_pos (TableChange.mem_removed_append_regeneratedNames.mpr drops)]
  · rw [droppedCount, if_neg (TableChange.mem_removed_append_regeneratedNames.not.mpr keeps)]
  · rcases ordered.exists_altered member alters with ⟨pair, pairMember, affected⟩
    rcases TableChange.mem_altered.mp pairMember with ⟨keeps, changed⟩
    exact ⟨pair, keeps, changed, affected⟩

end Target

/-! ## An example -/

namespace ColumnsExample

def title (type : String) : Column := { name := "title", dataType := type }

def slug (expression : String) : Column :=
  { name := "slug", dataType := "text", generated := some { expression, stored := true } }

def summary : Column := { name := "summary", dataType := "text" }

def legacy : Column := { name := "legacy", dataType := "text" }

/-- One column is added, one is dropped, one is replaced and one gets a longer type. -/
def change : TableChange where
  old := { name := "pages", columns := [legacy, slug "lower(title)", title "varchar(40)"] }
  new := { name := "pages", columns := [title "text", slug "upper(title)", summary] }

end ColumnsExample

open ColumnsExample in
theorem alterTable_coversColumns_pages :
    (change.old.columns.map (·.name)).Nodup ∧ (change.new.columns.map (·.name)).Nodup ∧
      ∃ statements, Target.alterTable ⟨Capabilities.postgres, {}⟩ change = .ok statements ∧
        change.CoversColumns statements ∧
        statements.map (fun statement => (statement.operation, statement.affected)) =
          [(.addColumn, ["pages.summary"]), (.dropColumn, ["pages.legacy"]),
            (.alterColumn, ["pages.title"]), (.dropColumn, ["pages.slug"]),
            (.addColumn, ["pages.slug"])] := by
  have oldDistinct : (change.old.columns.map (·.name)).Nodup := by decide
  have newDistinct : (change.new.columns.map (·.name)).Nodup := by decide
  have written : ∃ statements,
      Target.alterTable ⟨Capabilities.postgres, {}⟩ change = .ok statements := by
    decide +kernel
  rcases written with ⟨statements, done⟩
  refine ⟨oldDistinct, newDistinct, statements, done,
    Target.alterTable_coversColumns rfl oldDistinct newDistinct done, ?_⟩
  cases done
  rfl

end SchemaDdl
