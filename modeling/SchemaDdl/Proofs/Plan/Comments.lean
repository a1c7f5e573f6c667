import SchemaDdl.Capability.BuiltIn
import SchemaDdl.Proofs.Plan.NewTables

/-!
# Comments of a plan

A plan of the Postgres family comments on every table that it creates and on its columns, and on the
tables and columns whose comments change where they stand. A column that it brings into a table that
was there before it leaves without a comment.
-/

namespace SchemaDdl

/-! ## What a comment follows -/

def Follows (actions creators : List Action) (action : Action) : Prop :=
  ∃ front back, actions = front ++ action :: back ∧ ∀ creator ∈ creators, creator ∈ front

theorem Follows.mem {actions creators : List Action} {action : Action}
    (follows : Follows actions creators action) : action ∈ actions := by
  obtain ⟨front, back, split, _⟩ := follows
  rw [split]
  exact List.mem_append_right _ List.mem_cons_self

theorem follows_of_modification {steps : List PlanStep} {creators : List Action} {action : Action}
    (member : action ∈ actionsIn .modification steps)
    (created : ∀ creator ∈ creators, creator ∈ actionsIn .creation steps) :
    Follows (orderedActions steps) creators action := by
  obtain ⟨front, back, split⟩ := List.append_of_mem member
  refine ⟨actionsIn .creation steps ++ actionsIn .addition steps ++ front,
    back ++ actionsIn .removal steps ++ actionsIn .tableRemoval steps, ?_, ?_⟩
  · rw [orderedActions_eq, split]
    simp only [List.append_assoc, List.cons_append]
  · intro creator listed
    exact List.mem_append_left _ (List.mem_append_left _ (created creator listed))

/-! ## Comments of a new table -/

namespace Table

variable {table : Table} {column : Column} {capabilities : Capabilities} {comment : String}

theorem completion_eq (supported : capabilities.supports .comments = true) :
    table.completion capabilities true =
      (table.creationSettings capabilities).map (.setTable table.qualifiedName)
        ++ table.commentActions := by
  rw [completion, supported]
  rfl

theorem commentTable_mem_completion (supported : capabilities.supports .comments = true)
    (wanted : table.comment = some comment) :
    .commentTable table.qualifiedName (some comment) ∈ table.completion capabilities true := by
  rw [completion_eq supported, commentActions, wanted]
  exact List.mem_append_right _ (List.mem_append_left _ (List.mem_singleton_self _))

theorem commentColumn_mem_completion (supported : capabilities.supports .comments = true)
    (member : column ∈ table.columns) (wanted : column.comment = some comment) :
    .commentColumn table.qualifiedName column.name (some comment) ∈
      table.completion capabilities true := by
  rw [completion_eq supported, commentActions]
  apply List.mem_append_right
  apply List.mem_append_right
  exact List.mem_filterMap.mpr ⟨column, member, by rw [wanted]; rfl⟩

end Table

/-! ## Comments of a table of both versions -/

namespace TableChange

variable {change : TableChange} {pair : ColumnChange} {capabilities : Capabilities}
  {comments : Bool} {action : Action} {table : QualifiedName} {name : String}
  {comment : Option String}

theorem mem_modifications_of_mem_actions (postgres : capabilities.family = .postgres)
    (member : action ∈ change.actions capabilities comments)
    (part : changesPart action.operation = true)
    (inPlace : action.operation.phase = .modification) :
    action ∈ actionsIn .modification (change.steps capabilities comments) := by
  have step : alterationStep (change.actions capabilities comments) action =
      ⟨.modification, action⟩ := by
    rw [alterationStep_of_part part, PlanStep.routed, inPlace]
  rw [mem_actionsIn, steps_of_postgres postgres, ← step]
  exact List.mem_append_left _ (List.mem_append_right _ (List.mem_map_of_mem member))

theorem commentTable_mem_actions (postgres : capabilities.family = .postgres)
    (supported : capabilities.supports .comments = true) (changed : change.commentChanged = true) :
    .commentTable change.new.qualifiedName change.new.comment ∈
      change.actions capabilities true := by
  rw [actions_of_postgres postgres, supported, tableActions, changed]
  exact List.mem_append_right _ (List.mem_append_right _ (List.mem_singleton_self _))

theorem commentColumn_mem_actions (postgres : capabilities.family = .postgres)
    (supported : capabilities.supports .comments = true) (keeps : change.KeepsColumn pair)
    (inPlace : pair.regenerates = false) (changed : pair.commentChanged = true) :
    .commentColumn change.new.qualifiedName pair.new.name pair.new.comment ∈
      change.actions capabilities true := by
  have altered : pair ∈ change.altered := by
    rw [mem_altered, ColumnChange.isChange, changed, Bool.or_true]
    exact ⟨keeps, rfl⟩
  have listed : .commentColumn change.new.qualifiedName pair.new.name pair.new.comment ∈
      change.columnActions true pair := by
    unfold columnActions
    rw [inPlace, changed]
    exact List.mem_append_right _ (List.mem_singleton_self _)
  rw [actions_of_postgres postgres, supported]
  apply List.mem_append_left
  apply List.mem_append_right
  exact List.mem_flatMap.mpr ⟨pair, altered, listed⟩

theorem exists_of_commentColumn_mem_actions (postgres : capabilities.family = .postgres)
    (member : .commentColumn table name comment ∈ change.actions capabilities comments) :
    ∃ pair, change.KeepsColumn pair ∧ pair.regenerates = false ∧
      table = change.new.qualifiedName ∧ name = pair.new.name := by
  rw [actions_of_postgres postgres] at member
  simp only [List.mem_append] at member
  rcases member with ((added | removed) | altered) | rest
  · obtain ⟨_, _, same⟩ := List.mem_map.mp added
    cases same
  · obtain ⟨_, _, same⟩ := List.mem_map.mp removed
    cases same
  · obtain ⟨pair, pairMember, listed⟩ := List.mem_flatMap.mp altered
    refine ⟨pair, (mem_altered.mp pairMember).1, ?_⟩
    cases regenerates : pair.regenerates with
    | true =>
      rw [columnActions_of_regenerates regenerates] at listed
      rcases List.mem_pair.mp listed with same | same <;> cases same
    | false =>
      cases AltersColumn.of_mem_columnActions regenerates _ listed
      exact ⟨rfl, rfl, rfl⟩
  · cases AltersRest.of_mem_tableActions _ rest

end TableChange

/-! ## Comments of a schema -/

namespace SchemaChange

variable {change : SchemaChange} {capabilities : Capabilities} {table : Table} {column : Column}

def oldTable? (change : SchemaChange) (table : Table) : Option Table :=
  change.old.tableMatching? change.defaultSchema table.qualifiedName

/-- The version before of a column that stays where it is. A column that is generated anew does
not. -/
def stayingColumn? (change : SchemaChange) (table : Table) (column : Column) : Option Column :=
  (change.oldTable? table).bind fun old =>
    (old.column? column.name).filter fun held => !ColumnChange.regenerates ⟨held, column⟩

/-- Whether a column is brought into a table that was there before. -/
def Arrives (change : SchemaChange) (table : Table) (column : Column) : Prop :=
  (change.oldTable? table).isSome = true ∧ change.stayingColumn? table column = none

instance (change : SchemaChange) (table : Table) (column : Column) :
    Decidable (change.Arrives table column) :=
  inferInstanceAs (Decidable (_ ∧ _))

def tableCreators (change : SchemaChange) (table : Table) : List Action :=
  if (change.oldTable? table).isNone then [.createTable table] else []

def columnCreators (change : SchemaChange) (table : Table) (column : Column) : List Action :=
  match change.oldTable? table with
  | none => [.createTable table]
  | some old =>
      match old.column? column.name with
      | none => [.addColumn table (TableChange.addedColumn ⟨old, table⟩ column) false]
      | some held =>
          if ColumnChange.regenerates ⟨held, column⟩ then [.addColumn table column true] else []

/-- Whether actions comment on a table of the new version that has a comment that it did not have
before, once it is created. -/
def CommentsTable (change : SchemaChange) (actions : List Action) (table : Table) : Prop :=
  table.comment ≠ (change.oldTable? table).bind (·.comment) →
    Follows actions (change.tableCreators table)
      (.commentTable table.qualifiedName table.comment)

/-- Whether actions comment on a column of the new version that has a comment that it did not have
before, once it is created. -/
def CommentsColumn (change : SchemaChange) (actions : List Action) (table : Table)
    (column : Column) : Prop :=
  column.comment ≠ (change.stayingColumn? table column).bind (·.comment) →
    Follows actions (change.columnCreators table column)
      (.commentColumn table.qualifiedName column.name column.comment)

theorem mem_createdTables_iff : table ∈ change.createdTables ↔
    table ∈ change.new.tables ∧ change.oldTable? table = none := by
  simp [createdTables, oldTable?]

theorem stayingColumn?_eq_some_iff {old : Table} {held : Column}
    (found : change.oldTable? table = some old) :
    change.stayingColumn? table column = some held ↔
      old.column? column.name = some held ∧ ColumnChange.regenerates ⟨held, column⟩ = false := by
  simp [stayingColumn?, found, Option.filter_eq_some_iff]

theorem follows_of_mem_completion {comments : Bool} {action : Action}
    (created : table ∈ change.createdTables)
    (member : action ∈ table.completion capabilities comments) :
    Follows (orderedActions (change.steps capabilities comments)) [.createTable table] action := by
  have ordered : table ∈ change.creationOrder := mem_inDependencyOrder.mpr created
  apply follows_of_modification
  · rw [actionsIn_steps]
    apply List.mem_append_left
    apply List.mem_append_left
    exact List.mem_flatMap.mpr ⟨table, ordered, member⟩
  · rw [actionsIn_steps, List.forall_mem_singleton]
    exact List.mem_append_right _ (List.mem_map_of_mem ordered)

theorem follows_of_mem_actions {pair : TableChange} {comments : Bool} {action : Action}
    (postgres : capabilities.family = .postgres) (kept : pair ∈ change.keptTables)
    (member : action ∈ pair.actions capabilities comments)
    (comment : action.operation = .comment) :
    Follows (orderedActions (change.steps capabilities comments)) [] action := by
  apply follows_of_modification
  · rw [actionsIn_steps]
    apply List.mem_append_left
    apply List.mem_append_right
    refine List.mem_flatMap.mpr ⟨pair, kept, ?_⟩
    apply TableChange.mem_modifications_of_mem_actions postgres member
    · rw [comment]
      rfl
    · rw [comment]
      rfl
  · exact List.forall_mem_nil _

theorem commentsTable (postgres : capabilities.family = .postgres)
    (supported : capabilities.supports .comments = true) (member : table ∈ change.new.tables) :
    change.CommentsTable (orderedActions (change.steps capabilities true)) table := by
  intro differs
  unfold tableCreators
  cases found : change.oldTable? table with
  | none =>
    rw [found] at differs
    obtain ⟨comment, wanted⟩ := Option.ne_none_iff_exists'.mp differs
    rw [wanted]
    exact follows_of_mem_completion (mem_createdTables_iff.mpr ⟨member, found⟩)
      (Table.commentTable_mem_completion supported wanted)
  | some old =>
    have kept : ⟨old, table⟩ ∈ change.keptTables := mem_keptTables.mpr ⟨member, found⟩
    have changed : TableChange.commentChanged ⟨old, table⟩ = true := by
      rw [found] at differs
      exact bne_iff_ne.mpr differs.symm
    exact follows_of_mem_actions postgres kept
      (TableChange.commentTable_mem_actions postgres supported changed) rfl

theorem commentsColumn_of_not_arrives (postgres : capabilities.family = .postgres)
    (supported : capabilities.supports .comments = true) (member : table ∈ change.new.tables)
    (columnMember : column ∈ table.columns) (stays : ¬change.Arrives table column) :
    change.CommentsColumn (orderedActions (change.steps capabilities true)) table column := by
  intro differs
  unfold columnCreators
  cases found : change.oldTable? table with
  | none =>
    rw [stayingColumn?, found] at differs
    obtain ⟨comment, wanted⟩ := Option.ne_none_iff_exists'.mp differs
    rw [wanted]
    exact follows_of_mem_completion (mem_createdTables_iff.mpr ⟨member, found⟩)
      (Table.commentColumn_mem_completion supported columnMember wanted)
  | some old =>
    have kept : ⟨old, table⟩ ∈ change.keptTables := mem_keptTables.mpr ⟨member, found⟩
    have staying : change.stayingColumn? table column ≠ none := by
      intro gone
      exact stays ⟨by rw [found]; rfl, gone⟩
    obtain ⟨held, same⟩ := Option.ne_none_iff_exists'.mp staying
    obtain ⟨before, inPlace⟩ := (stayingColumn?_eq_some_iff found).mp same
    rw [same] at differs
    simp only [before, inPlace, Bool.false_eq_true, if_false]
    exact follows_of_mem_actions postgres kept
      (TableChange.commentColumn_mem_actions postgres supported ⟨columnMember, before⟩ inPlace
        (bne_iff_ne.mpr differs.symm)) rfl

theorem eq_of_qualifiedName_eq {other : Table}
    (apart : change.new.NamesApart change.defaultSchema) (member : table ∈ change.new.tables)
    (otherMember : other ∈ change.new.tables) (same : other.qualifiedName = table.qualifiedName) :
    other = table := by
  apply Apart.eq_of_same apart (fun _ _ => QualifiedName.agrees_symm) otherMember member
  rw [same]
  exact QualifiedName.agrees_self _

theorem not_arrives_of_commentColumn_mem {comments : Bool} {comment : Option String}
    (postgres : capabilities.family = .postgres)
    (apart : change.new.NamesApart change.defaultSchema)
    (distinct : (table.columns.map (·.name)).Nodup) (member : table ∈ change.new.tables)
    (columnMember : column ∈ table.columns)
    (listed : .commentColumn table.qualifiedName column.name comment ∈
      orderedActions (change.steps capabilities comments)) : ¬change.Arrives table column := by
  obtain ⟨step, planned, same⟩ := mem_orderedActions.mp listed
  rw [steps_eq] at planned
  simp only [List.mem_append] at planned
  rintro ⟨held, gone⟩
  -- A comment on a column completes a created table or belongs to a column in its place, and the
  -- names tell which table and column this is.
  rcases planned with (((leading | creation) | kept) | dropped) | trailing
  · have operation := (of_mem_leadingSteps leading).2
    rw [same] at operation
    simp [Action.operation] at operation
  · obtain ⟨other, created, action, completes, rfl⟩ := mem_creationSteps.mp creation
    cases same
    rcases mem_creationActions.mp completes with equal | ⟨_, _, equal⟩ | completes
    · cases equal
    · cases equal
    · rcases Table.of_mem_completion completes with ⟨_, equal⟩ | ⟨_, equal⟩ | ⟨_, _, equal⟩
      · cases equal
      · cases equal
      · obtain ⟨otherMember, new⟩ := mem_createdTables_iff.mp created
        have named := (Action.commentColumn.inj equal).1.symm
        rw [eq_of_qualifiedName_eq apart member otherMember named] at new
        rw [new] at held
        cases held
  · obtain ⟨⟨old, new⟩, pairKept, planned⟩ := List.mem_flatMap.mp kept
    obtain ⟨newMember, found⟩ := mem_keptTables.mp pairKept
    rcases TableChange.mem_actions_or_index_of_mem_steps step planned with
      alters | ⟨_, drops | creates⟩
    · rw [same] at alters
      obtain ⟨⟨before, after⟩, keeps, inPlace, named, columnNamed⟩ :=
        TableChange.exists_of_commentColumn_mem_actions postgres alters
      cases eq_of_qualifiedName_eq apart member newMember named.symm
      cases List.inj_on_of_nodup_map distinct columnMember keeps.1 columnNamed
      have stays := (stayingColumn?_eq_some_iff found).mpr ⟨keeps.2, inPlace⟩
      rw [gone] at stays
      cases stays
    · cases same.symm.trans drops
    · cases same.symm.trans creates
  · obtain ⟨other, _, rfl⟩ := List.mem_map.mp dropped
    cases same
  · have operation := (operation_of_mem_trailingSteps trailing).1
    rw [same] at operation
    simp [Action.operation] at operation

theorem commentsColumn_iff_of_arrives {comments : Bool} (postgres : capabilities.family = .postgres)
    (apart : change.new.NamesApart change.defaultSchema)
    (distinct : (table.columns.map (·.name)).Nodup) (member : table ∈ change.new.tables)
    (columnMember : column ∈ table.columns) (arrives : change.Arrives table column) :
    change.CommentsColumn (orderedActions (change.steps capabilities comments)) table column ↔
      column.comment = none := by
  unfold CommentsColumn
  rw [arrives.2]
  constructor
  · intro commented
    by_contra wanted
    exact not_arrives_of_commentColumn_mem postgres apart distinct member columnMember
      (commented wanted).mem arrives
  · intro nothing differs
    exact absurd nothing differs

end SchemaChange

/-! ## Plans -/

/-- A plan of the Postgres family comments on every table, and on every column that is created with
its table or stays in its place, as their comments ask for. Where names are apart, a column that is
brought into a table that was there before is left without the comment that it has. -/
theorem Target.plan_convergesComments_iff {target : Target} {old new : Schema}
    {plan : MigrationPlan} (postgres : target.family = .postgres)
    (wanted : target.options.comments = true)
    (supported : target.capabilities.supports .comments = true)
    (planned : target.plan old new = .ok plan) :
    let change := target.schemaChange old new
    let actions := target.orderedActions old new
    target.statements actions = .ok plan.statements ∧
      (∀ table ∈ new.tables, change.CommentsTable actions table) ∧
      (∀ table ∈ new.tables, ∀ column ∈ table.columns, ¬change.Arrives table column →
        change.CommentsColumn actions table column) ∧
      (new.NamesApart target.capabilities.defaultSchema →
        (∀ table ∈ new.tables, (table.columns.map (·.name)).Nodup) →
        ∀ table ∈ new.tables, ∀ column ∈ table.columns,
          (change.CommentsColumn actions table column ↔
            (change.Arrives table column → column.comment = none))) := by
  have commentsTable : ∀ table ∈ new.tables,
      (target.schemaChange old new).CommentsTable (target.orderedActions old new) table := by
    intro table member
    rw [Target.orderedActions, wanted]
    exact SchemaChange.commentsTable postgres supported member
  have commentsColumn : ∀ table ∈ new.tables, ∀ column ∈ table.columns,
      ¬(target.schemaChange old new).Arrives table column →
        (target.schemaChange old new).CommentsColumn (target.orderedActions old new) table
          column := by
    intro table member column columnMember stays
    rw [Target.orderedActions, wanted]
    exact SchemaChange.commentsColumn_of_not_arrives postgres supported member columnMember stays
  refine ⟨(plan_eq_ok_iff.mp planned).1, commentsTable, commentsColumn, ?_⟩
  intro apart distinct table member column columnMember
  have arriving (arrives : (target.schemaChange old new).Arrives table column) :
      (target.schemaChange old new).CommentsColumn (target.orderedActions old new) table column ↔
        column.comment = none :=
    SchemaChange.commentsColumn_iff_of_arrives postgres apart (distinct table member) member
      columnMember arrives
  constructor
  · intro comments arrives
    exact (arriving arrives).mp comments
  · intro silent
    by_cases arrives : (target.schemaChange old new).Arrives table column
    · exact (arriving arrives).mpr (silent arrives)
    · exact commentsColumn table member column columnMember arrives

/-! ## An example -/

namespace CommentsExample

def target : Target := ⟨Capabilities.postgres, { comments := true }⟩

def key (comment : Option String) : Column := { name := "id", dataType := "integer", comment }

def title (comment : Option String) : Column := { name := "title", dataType := "text", comment }

def slug (expression : String) (comment : Option String) : Column where
  name := "slug"
  dataType := "text"
  generated := some { expression, stored := true }
  comment

def pages (comment : Option String) (columns : List Column) : Table :=
  { name := "pages", columns, comment }

def old : Schema := { tables := [pages (some "Text") [key none, slug "id::text" none]] }

def described : Schema where
  tables :=
    [pages none [key (some "Its number"), slug "id::text" none, title none],
      { name := "users", columns := [key (some "Its number")], comment := some "Authors" }]

def describing : List String :=
  ["CREATE TABLE users (\n    id integer\n)", "ALTER TABLE pages ADD COLUMN title text",
    "COMMENT ON TABLE users IS 'Authors'", "COMMENT ON COLUMN users.id IS 'Its number'",
    "COMMENT ON COLUMN pages.id IS 'Its number'", "COMMENT ON TABLE pages IS NULL"]

def extended : Schema where
  tables :=
    [pages (some "Text")
      [key none, slug "upper(id::text)" (some "In addresses"), title (some "Shown first")]]

end CommentsExample

open CommentsExample in
theorem plan_convergesComments_pages :
    ∃ plan, target.plan old described = .ok plan ∧
      plan.statements.map (·.sql) = describing ∧
      ∀ table ∈ described.tables,
        (target.schemaChange old described).CommentsTable (target.orderedActions old described)
            table ∧
          ∀ column ∈ table.columns, (target.schemaChange old described).CommentsColumn
            (target.orderedActions old described) table column := by
  have succeeds : ∃ plan, target.plan old described = .ok plan ∧
      plan.statements.map (·.sql) = describing := by
    decide +kernel
  obtain ⟨plan, planned, texts⟩ := succeeds
  obtain ⟨_, tables, _, columns⟩ :=
    Target.plan_convergesComments_iff rfl rfl (by decide +kernel) planned
  have silent : ∀ table ∈ described.tables, ∀ column ∈ table.columns,
      (target.schemaChange old described).Arrives table column → column.comment = none := by
    decide +kernel
  refine ⟨plan, planned, texts, fun table member => ⟨tables table member, ?_⟩⟩
  intro column columnMember
  exact (columns (by decide +kernel) (by decide +kernel) table member column columnMember).mpr
    (silent table member column columnMember)

open CommentsExample in
/-- The column that is new and the one that is generated anew are left without their comments. -/
theorem plan_leaves_columns_without_comments_pages :
    ∃ plan, target.plan old extended = .ok plan ∧
      plan.statements.map (·.sql) =
        ["ALTER TABLE pages ADD COLUMN title text",
          "ALTER TABLE pages DROP COLUMN slug",
          "ALTER TABLE pages ADD COLUMN slug text GENERATED ALWAYS AS (upper(id::text)) STORED"] ∧
      ∀ table ∈ extended.tables, ∀ column ∈ table.columns, column.name ≠ "id" →
        ¬(target.schemaChange old extended).CommentsColumn (target.orderedActions old extended)
          table column := by
  refine exists_ok_and_of (by decide +kernel) ?_
  intro table member column columnMember named commented
  have arrives : ∀ table ∈ extended.tables, ∀ column ∈ table.columns, column.name ≠ "id" →
      (target.schemaChange old extended).Arrives table column ∧ column.comment ≠ none := by
    decide +kernel
  obtain ⟨arrives, wanted⟩ := arrives table member column columnMember named
  have distinct : ∀ table ∈ extended.tables, (table.columns.map (·.name)).Nodup := by
    decide +kernel
  have apart : extended.NamesApart "public" := by decide +kernel
  exact wanted ((SchemaChange.commentsColumn_iff_of_arrives rfl apart (distinct table member) member
    columnMember arrives).mp commented)

end SchemaDdl
