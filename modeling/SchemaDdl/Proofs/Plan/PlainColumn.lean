import SchemaDdl.Proofs.Plan.Frame
import SchemaDdl.Proofs.Plan.Parts
import SchemaDdl.Proofs.Writing.Column

/-!
# One column more

Between two versions of a well-formed schema that differ in one table, only this table is anything
to a plan. When it has one more column that takes nulls and asks for nothing else, the plan is one
statement, which adds the column and endangers no row, on every dialect and whatever else there is.
-/

namespace SchemaDdl

/-! ## One table in two versions -/

/-- Whether two versions of a schema differ in one table only, which keeps its name and its place
between other tables. -/
structure SchemaChange.AltersOnly (change : SchemaChange) (pair : TableChange)
    (before after : List Table) : Prop where
  old : change.old.tables = before ++ pair.old :: after
  new : change.new = { change.old with tables := before ++ pair.new :: after }
  name : pair.new.qualifiedName = pair.old.qualifiedName

namespace SchemaChange

variable {change : SchemaChange} {pair : TableChange} {before after : List Table}
  {capabilities : Capabilities} {comments : Bool}

namespace AltersOnly

variable (alters : change.AltersOnly pair before after)

include alters

theorem mem_old {table : Table} :
    table ∈ change.old.tables ↔ table ∈ before ∨ table = pair.old ∨ table ∈ after := by
  rw [alters.old, List.mem_append, List.mem_cons]

theorem mem_new {table : Table} :
    table ∈ change.new.tables ↔ table ∈ before ∨ table = pair.new ∨ table ∈ after := by
  rw [alters.new, List.mem_append, List.mem_cons]

theorem createdTables_eq_nil : change.createdTables = [] := by
  refine SchemaChange.createdTables_eq_nil fun table member => ?_
  rcases alters.mem_new.mp member with earlier | rfl | later
  · exact ⟨table, alters.mem_old.mpr (.inl earlier), QualifiedName.agrees_self _⟩
  · exact ⟨pair.old, alters.mem_old.mpr (.inr (.inl rfl)),
      alters.name ▸ QualifiedName.agrees_self _⟩
  · exact ⟨table, alters.mem_old.mpr (.inr (.inr later)), QualifiedName.agrees_self _⟩

theorem droppedTables_eq_nil : change.droppedTables = [] := by
  refine SchemaChange.droppedTables_eq_nil fun table member => ?_
  rcases alters.mem_old.mp member with earlier | rfl | later
  · exact ⟨table, alters.mem_new.mpr (.inl earlier), QualifiedName.agrees_self _⟩
  · exact ⟨pair.new, alters.mem_new.mpr (.inr (.inl rfl)),
      alters.name ▸ QualifiedName.agrees_self _⟩
  · exact ⟨table, alters.mem_new.mpr (.inr (.inr later)), QualifiedName.agrees_self _⟩

theorem flatMap_keptTables {β : Type} (apart : change.old.NamesApart change.defaultSchema)
    (found : TableChange → List β)
    (nothing : ∀ table ∈ change.old.tables, found ⟨table, table⟩ = []) :
    change.keptTables.flatMap found = found pair := by
  let pairing (table : Table) : Option TableChange :=
    (change.old.tableMatching? change.defaultSchema table.qualifiedName).map (⟨·, table⟩)
  have others : ∀ tables : List Table, (∀ table ∈ tables, table ∈ change.old.tables) →
      (tables.filterMap pairing).flatMap found = [] := by
    intro tables members
    refine List.flatMap_eq_nil_iff.mpr fun other member => ?_
    rcases List.mem_filterMap.mp member with ⟨table, tableMember, paired⟩
    have self := Schema.tableMatching?_of_namesApart apart (members table tableMember)
      (QualifiedName.agrees_self _)
    dsimp only [pairing] at paired
    rw [self] at paired
    cases paired
    exact nothing table (members table tableMember)
  have altered : pairing pair.new = some pair := by
    dsimp only [pairing]
    rw [Schema.tableMatching?_of_namesApart apart (alters.mem_old.mpr (.inr (.inl rfl)))
      (alters.name ▸ QualifiedName.agrees_self _)]
    rfl
  have kept : change.keptTables = (before ++ pair.new :: after).filterMap pairing := by
    rw [keptTables, alters.new]
  rw [kept, List.filterMap_append, List.filterMap_cons_some altered, List.flatMap_append,
    List.flatMap_cons, others before fun table earlier => alters.mem_old.mpr (.inl earlier),
    others after fun table later => alters.mem_old.mpr (.inr (.inr later)), List.nil_append,
    List.append_nil]

variable (wellFormed : change.old.WellFormed change.defaultSchema)
  (rules : change.old.RulesApart change.defaultSchema)

include wellFormed rules

theorem objectSteps_eq_nil : change.leadingSteps = [] ∧ change.trailingSteps = [] := by
  rcases change with ⟨old, new, defaultSchema⟩
  obtain rfl : new = { old with tables := before ++ pair.new :: after } := alters.new
  let unaltered : SchemaChange := ⟨old, old, defaultSchema⟩
  have same : unaltered.old.Equivalent unaltered.new := .refl old
  have nothing : unaltered.steps .postgres true = [] := steps_of_equivalent same wellFormed rules
  simp only [SchemaChange.steps, List.append_eq_nil_iff] at nothing
  rcases nothing with
    ⟨⟨⟨⟨⟨⟨⟨⟨⟨extensions, enums⟩, sequences⟩, _⟩, _⟩, _⟩, views⟩, functions⟩, triggers⟩, _⟩
  -- The steps for policies are found by a recursion that carries the change along, so that they are
  -- compared by what they are made from.
  have held := ne_added_of_unchanged (policyStanding_of_equivalent same rules)
  simp only [leadingSteps, trailingSteps, List.append_eq_nil_iff]
  exact ⟨⟨⟨extensions, enums⟩, sequences⟩,
    ⟨⟨⟨views, functions⟩, triggers⟩, policySteps_eq_nil held⟩⟩

theorem steps_eq : change.steps capabilities comments = pair.steps capabilities comments := by
  have tables := alters.flatMap_keptTables wellFormed.names (·.steps capabilities comments)
    fun table member =>
      TableChange.steps_of_equivalent (.refl table) (wellFormed.tables table member)
  have creations : change.creationSteps capabilities comments = [] := by
    rw [creationSteps, alters.createdTables_eq_nil]
    rfl
  have drops : change.dropSteps = [] := by
    rw [dropSteps, alters.droppedTables_eq_nil]
    rfl
  rcases alters.objectSteps_eq_nil wellFormed rules with ⟨leading, trailing⟩
  rw [SchemaChange.steps_eq, leading, creations, tables, drops, trailing]
  simp only [List.nil_append, List.append_nil]

theorem warnings_eq : change.warnings = pair.renameWarnings := by
  have tables := alters.flatMap_keptTables wellFormed.names (·.renameWarnings)
    fun table _ => TableChange.renameWarnings_of_equivalent (.refl table)
  have tableRenames : change.tableRenames = [] := by
    rw [SchemaChange.tableRenames, alters.droppedTables_eq_nil, List.flatMap_nil,
      Rename.bestPairs_nil]
  have cycles : change.cycleWarnings = [] := by
    rw [cycleWarnings, alters.createdTables_eq_nil]
    rfl
  have objects : change.enumWarnings = [] ∧ change.sequenceWarnings = [] ∧
      change.changeWarnings = [] ∧ change.removalWarnings = [] := by
    rcases change with ⟨old, new, defaultSchema⟩
    obtain rfl : new = { old with tables := before ++ pair.new :: after } := alters.new
    have unaltered : SchemaChange.warnings ⟨old, old, defaultSchema⟩ = [] :=
      warnings_of_equivalent (.refl old) wellFormed rules
    simp only [SchemaChange.warnings, List.append_eq_nil_iff] at unaltered
    rcases unaltered with ⟨⟨⟨⟨⟨⟨enums, sequences⟩, _⟩, _⟩, _⟩, changes⟩, removals⟩
    exact ⟨enums, sequences, changes, removals⟩
  rcases objects with ⟨enums, sequences, changes, removals⟩
  rw [warnings, enums, sequences, tableRenames, cycles, tables, changes, removals]
  simp only [List.map_nil, List.nil_append, List.append_nil]

end AltersOnly

end SchemaChange

/-! ## One column more in a table -/

/-- A table with a column put in at a place, which is the end when there are fewer columns. -/
def Table.insertColumn (table : Table) (place : Nat) (column : Column) : Table :=
  { table with columns := table.columns.take place ++ column :: table.columns.drop place }

theorem Table.mem_columns_insertColumn {table : Table} {column other : Column} {place : Nat} :
    other ∈ (table.insertColumn place column).columns ↔ other = column ∨ other ∈ table.columns := by
  have parts : other ∈ table.columns ↔
      other ∈ table.columns.take place ∨ other ∈ table.columns.drop place := by
    rw [← List.mem_append, List.take_append_drop]
  rw [insertColumn, List.mem_append, List.mem_cons, parts]
  exact or_left_comm

/-- Whether a column takes nulls and asks for nothing that concerns rows. -/
structure Column.IsPlain (column : Column) : Prop where
  nullable : column.nullable = true
  primaryKey : column.primaryKey = false
  unique : column.unique = false
  autoIncrement : column.autoIncrement = false
  generated : column.generated = none
  default : column.default = none
  comment : column.comment = none

namespace Column.IsPlain

variable {column : Column} (plain : column.IsPlain)

include plain

theorem isSafeToAdd : TableChange.isSafeToAdd column = true := by
  simp [TableChange.isSafeToAdd, TableChange.hasConstantDefault?, plain.nullable, plain.primaryKey,
    plain.unique, plain.autoIncrement, plain.generated, plain.default]

theorem destructive_addColumn (family : Family) (table : Table) :
    (Action.addColumn table column false).destructive family = false := by
  cases family <;> simp [Action.destructive, requiresBackfill, plain.nullable, plain.unique]

theorem succeeds_statement (target : Target) (table : Table) :
    Succeeds (target.statement (.addColumn table column false)) := by
  have definition : Succeeds (target.columnDefinition table column) :=
    Target.succeeds_columnDefinition.mpr
      ⟨fun numbered => by simp [plain.autoIncrement] at numbered,
        fun _ value found => by simp [plain.default] at found⟩
  rcases definition with ⟨definition, written⟩
  simp [Target.statement, Target.actionText, Target.addColumnText, Target.columnText, written]

end Column.IsPlain

namespace TableChange

def insertion (table : Table) (place : Nat) (column : Column) : TableChange :=
  ⟨table, table.insertColumn place column⟩

variable {table : Table} {column : Column} {place : Nat} {capabilities : Capabilities}
  {comments : Bool}

section

variable (fresh : table.hasColumn column.name = false)

include fresh

theorem added_insertion : (insertion table place column).added = [column] := by
  have held : ∀ other ∈ table.columns, ¬(!table.hasColumn other.name) = true := by
    intro other member
    simpa [Table.hasColumn, Table.column?] using ⟨other, member, rfl⟩
  have front := List.filter_eq_nil_iff.mpr fun other member =>
    held other (List.mem_of_mem_take (i := place) member)
  have back := List.filter_eq_nil_iff.mpr fun other member =>
    held other (List.mem_of_mem_drop (i := place) member)
  rw [added, insertion, Table.insertColumn, List.filter_append,
    List.filter_cons_of_pos (by simp [fresh]), front, back, List.nil_append]

theorem altered_insertion (wellFormed : table.WellFormed) :
    (insertion table place column).altered = [] := by
  refine List.filterMap_eq_nil_iff.mpr fun other member => ?_
  show (table.column? other.name).bind (ColumnChange.between? · other) = none
  rcases Table.mem_columns_insertColumn.mp member with rfl | member
  · have missing : table.column? other.name = none := by simpa [Table.hasColumn] using fresh
    rw [missing, Option.bind_none]
  · have found : table.column? other.name = some other :=
      wellFormed.columns.find?_eq_some (fun _ _ => BEq.symm) member (beq_self_eq_true _)
    rw [found, Option.bind_some]
    exact ColumnChange.between?_of_equivalent (.refl other) (wellFormed.defaults other member)

end

theorem removed_insertion : (insertion table place column).removed = [] :=
  removed_eq_nil fun other member => ⟨other, Table.mem_columns_insertColumn.mpr (.inr member), rfl⟩

theorem addedConstraints_insertion : (insertion table place column).addedConstraints = [] :=
  constraintsOnlyIn_of_perm rfl (.refl _)

theorem removedConstraints_insertion : (insertion table place column).removedConstraints = [] :=
  constraintsOnlyIn_of_perm rfl (.refl _)

theorem primaryKeyChanged_insertion (plain : column.IsPlain) :
    (insertion table place column).primaryKeyChanged = false := by
  have flagged : (table.insertColumn place column).flaggedColumns = table.flaggedColumns :=
    congrArg (List.map _) (filter_inserted plain.primaryKey)
  have same : (table.insertColumn place column).primaryKeyColumns = table.primaryKeyColumns :=
    congrArg (Option.getD _) flagged
  rw [primaryKeyChanged, insertion, same, bne_self_eq_false]

theorem optionsChanged_insertion : (insertion table place column).optionsChanged = false := by
  simp [optionsChanged, insertion, Table.insertColumn]

theorem tableActions_insertion (plain : column.IsPlain) :
    (insertion table place column).tableActions capabilities comments = [] :=
  tableActions_eq_nil addedConstraints_insertion removedConstraints_insertion
    (primaryKeyChanged_insertion plain) optionsChanged_insertion rfl (bne_self_eq_false _)

section

variable (wellFormed : table.WellFormed) (fresh : table.hasColumn column.name = false)
  (plain : column.IsPlain)

include wellFormed fresh plain

theorem requiresRecreation_insertion :
    (insertion table place column).requiresRecreation capabilities = false := by
  unfold requiresRecreation
  split
  · rfl
  · simp [removed_insertion, altered_insertion fresh wellFormed, addedConstraints_insertion,
      removedConstraints_insertion, primaryKeyChanged_insertion plain, optionsChanged_insertion,
      added_insertion fresh, plain.isSafeToAdd]

theorem actions_insertion :
    (insertion table place column).actions capabilities comments =
      [.addColumn (table.insertColumn place column) column false] := by
  have added : (insertion table place column).added = [column] := added_insertion fresh
  cases family : capabilities.family with
  | postgres =>
      simp only [actions_of_postgres family, columnAdditions, columnRemovals, added,
        removed_insertion, altered_insertion fresh wellFormed, tableActions_insertion plain,
        addedColumn, primaryKeyChanged_insertion plain]
      rfl
  | sqlite =>
      rw [actions_of_inPlace family (requiresRecreation_insertion wellFormed fresh plain), added,
        columnRemovals, removed_insertion]
      rfl

theorem steps_insertion :
    (insertion table place column).steps capabilities comments =
      [.routed (.addColumn (table.insertColumn place column) column false)] := by
  have gains : (insertion table place column).GainsColumn column :=
    mem_added.mp (added_insertion fresh ▸ List.mem_singleton_self column)
  have alterations : (insertion table place column).alterationSteps capabilities comments =
      [.routed (.addColumn (table.insertColumn place column) column false)] := by
    have step : alterationStep ((insertion table place column).actions capabilities comments)
        (.addColumn (table.insertColumn place column) column false) =
          .routed (.addColumn (table.insertColumn place column) column false) :=
      alterationStep_of_gains gains rfl
    rw [actions_insertion wellFormed fresh plain] at step
    rw [alterationSteps, actions_insertion wellFormed fresh plain, List.map_singleton]
    exact congrArg ([·]) step
  rw [steps_of_inPlace (requiresRecreation_insertion wellFormed fresh plain), alterations,
    indexRemovals_of_perm (.refl _), indexAdditions_of_perm (.refl _) wellFormed]
  rfl

end

theorem renameWarnings_insertion : (insertion table place column).renameWarnings = [] := by
  rw [renameWarnings, columnRenames, removed_insertion, List.flatMap_nil, Rename.bestPairs_nil,
    List.map_nil]

end TableChange

/-! ## One column more in a schema -/

/-- A schema whose table at a place gets one more column. -/
def Schema.insertColumn (schema : Schema) (tablePlace place : Nat) (column : Column) : Schema :=
  { schema with tables := schema.tables.modify tablePlace (·.insertColumn place column) }

theorem SchemaChange.altersOnly_insertColumn {schema : Schema} {table : Table} {tablePlace : Nat}
    (found : schema.tables[tablePlace]? = some table) (place : Nat) (column : Column)
    (defaultSchema : String) :
    ∃ before after, AltersOnly ⟨schema, schema.insertColumn tablePlace place column, defaultSchema⟩
      (.insertion table place column) before after := by
  rcases List.getElem?_eq_some_iff.mp found with ⟨bound, rfl⟩
  refine ⟨schema.tables.take tablePlace, schema.tables.drop (tablePlace + 1), ?_, ?_, rfl⟩
  · rw [TableChange.insertion, List.getElem_cons_drop, List.take_append_drop]
  · rw [Schema.insertColumn, List.modify_eq_take_cons_drop bound]
    rfl

/-- A table of a well-formed schema gets a plain column of a new name in one statement, which
endangers no row and comes without a warning, on every dialect and whatever else the schema has. -/
theorem Target.plan_insertColumn {target : Target} {schema : Schema} {table : Table}
    {column : Column} {tablePlace : Nat}
    (wellFormed : schema.WellFormed target.capabilities.defaultSchema)
    (rules : schema.RulesApart target.capabilities.defaultSchema)
    (found : schema.tables[tablePlace]? = some table)
    (fresh : table.hasColumn column.name = false) (plain : column.IsPlain) (place : Nat) :
    ∃ statement,
      target.plan schema (schema.insertColumn tablePlace place column) =
        .ok { statements := [statement] } ∧
      statement.operation = .addColumn ∧ statement.destructive = false ∧
      statement.affected = [Action.columnPath table.qualifiedName column.name] := by
  rcases SchemaChange.altersOnly_insertColumn found place column target.capabilities.defaultSchema
    with ⟨before, after, alters⟩
  rcases plain.succeeds_statement target (table.insertColumn place column) with
    ⟨statement, written⟩
  have ordered : target.orderedActions schema (schema.insertColumn tablePlace place column) =
      [.addColumn (table.insertColumn place column) column false] := by
    rw [orderedActions, schemaChange, alters.steps_eq wellFormed rules,
      TableChange.steps_insertion (wellFormed.tables table (List.mem_of_getElem? found)) fresh
        plain]
    rfl
  refine ⟨statement, plan_eq_ok_iff.mpr ⟨?_, ?_⟩, operation_of_statement written,
    (destructive_of_statement written).trans (plain.destructive_addColumn _ _),
    affected_of_statement written⟩
  · rw [ordered, statements, List.mapM_cons, written]
    rfl
  · exact (alters.warnings_eq wellFormed rules).trans TableChange.renameWarnings_insertion

/-! ## An example -/

namespace PlainColumnExample

def summary : Column := { name := "summary", dataType := "text" }

def pages : Table where
  name := "pages"
  columns := [{ name := "id", dataType := "integer", nullable := false, primaryKey := true }]
  indexes := [{ name := "by_id", table := .plain "pages", keys := [{ target := .column "id" }] }]

def visits : Table := { name := "visits", columns := [{ name := "page", dataType := "integer" }] }

def touch : Trigger where
  name := "touch"
  table := .plain "pages"
  timing := .before
  events := [.insert]
  function := some (.plain "touch")

def touchAfter : Trigger := { touch with table := .ofText "public.pages", timing := .after }

def site (triggers : List Trigger) : Schema := { tables := [visits, pages], triggers }

theorem site_wellFormed (defaultSchema : String) (triggers : List Trigger) :
    (site triggers).WellFormed defaultSchema where
  names := by
    simp [Schema.NamesApart, site, visits, pages, Table.qualifiedName, QualifiedName.agrees]
  tables := by
    have pages : pages.WellFormed := ⟨by decide, by decide, by simp [pages]⟩
    have visits : visits.WellFormed := ⟨by decide, by decide, by simp [visits]⟩
    exact List.forall_mem_cons.mpr ⟨visits, List.forall_mem_singleton.mpr pages⟩
  enums := .nil
  sequences := .nil
  functions := .nil
  views := .nil

theorem summary_isPlain : summary.IsPlain :=
  ⟨rfl, rfl, rfl, rfl, rfl, rfl, rfl⟩

end PlainColumnExample

open PlainColumnExample in
theorem Target.plan_insertColumn_pages :
    (site [touch]).WellFormed "main" ∧ (site [touch]).RulesApart "main" ∧
      (site [touch]).tables[1]? = some pages ∧ pages.hasColumn summary.name = false ∧
      summary.IsPlain ∧ ∃ statement,
        Target.plan ⟨Capabilities.sqlite, {}⟩ (site [touch])
          ((site [touch]).insertColumn 1 0 summary) = .ok { statements := [statement] } ∧
        statement.operation = .addColumn ∧ statement.destructive = false ∧
        statement.affected = ["pages.summary"] := by
  have wellFormed := site_wellFormed "main" [touch]
  have rules : (site [touch]).RulesApart "main" := ⟨by decide, .nil⟩
  have found : (site [touch]).tables[1]? = some pages := rfl
  have fresh : pages.hasColumn summary.name = false := by decide
  let target : Target := ⟨Capabilities.sqlite, {}⟩
  exact ⟨wellFormed, rules, found, fresh, summary_isPlain,
    target.plan_insertColumn wellFormed rules found fresh summary_isPlain 0⟩

open PlainColumnExample in
/-- Triggers whose tables differ as they are written may be one trigger to a plan, which warns of a
change that is none. -/
theorem Target.plan_insertColumn_warns_of_triggers_pages :
    (site [touch, touchAfter]).WellFormed "public" ∧
      ([touch, touchAfter].map fun trigger => (trigger.name, trigger.table)).Nodup ∧
      (site [touch, touchAfter]).tables[1]? = some pages ∧
      pages.hasColumn summary.name = false ∧ summary.IsPlain ∧
      (Target.plan ⟨Capabilities.postgres, {}⟩ (site [touch, touchAfter])
        ((site [touch, touchAfter]).insertColumn 1 1 summary)).map (·.warnings) =
        .ok [.manualMigration "public.pages.touch" (.changed .trigger)] :=
  ⟨site_wellFormed .., by decide +kernel, rfl, by decide, summary_isPlain, by decide +kernel⟩

end SchemaDdl
