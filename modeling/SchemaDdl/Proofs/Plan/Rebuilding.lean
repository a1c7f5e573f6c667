import SchemaDdl.Proofs.Plan.InPlace
import SchemaDdl.Proofs.Plan.Recreation
import SchemaDdl.Proofs.Plan.Transactions
import SchemaDdl.Proofs.Writing.Renaming
import SchemaDdl.Proofs.Writing.Schema
import SchemaDdl.Proofs.Writing.Wording

/-!
# The script that builds a table anew

SQLite builds a table anew by one statement, which is a script. The script can be written when the
new version and its indexes can; it creates the shadow table in the words that create the new
version, but for the name. A new version that cannot be written is refused for the same faults, but
they are told of the shadow table.
-/

namespace SchemaDdl

@[simp] theorem succeeds_verdict {ε α : Type} {attempt : Except ε α} :
    Succeeds (verdict attempt) ↔ Succeeds attempt :=
  succeeds_map

namespace TableChange

/-- The name of the shadow table. -/
def shadowName (change : TableChange) : QualifiedName :=
  ⟨change.new.schema, s!"_{change.new.name}_new"⟩

theorem length_name_lt (change : TableChange) :
    change.new.name.length < change.shadowName.name.length := by
  simp only [shadowName, Text.toString_string, String.length_append]
  have underscore : "_".length = 1 := rfl
  omega

theorem mem_copiedColumns {change : TableChange} {name : String} :
    name ∈ change.copiedColumns ↔ ∃ pair, change.KeepsColumn pair ∧ pair.new.name = name ∧
      pair.old.isGenerated = false ∧ pair.new.isGenerated = false :=
  (@copiesColumn_iff_mem change name true).symm.trans copiesColumn_iff

theorem copiedColumns_sublist (change : TableChange) :
    change.copiedColumns.Sublist (change.new.columns.map (·.name)) :=
  List.filter_sublist.map _

theorem family_of_requiresRecreation {change : TableChange} {capabilities : Capabilities}
    (anew : change.requiresRecreation capabilities = true) : capabilities.family = .sqlite := by
  unfold requiresRecreation at anew
  split at anew
  · cases anew
  · assumption

end TableChange

namespace Target

variable {target : Target} {change : TableChange}

/-! ## The steps of the script -/

/-- The steps of a script with given texts for the shadow table and for the indexes. -/
def scriptTexts (target : Target) (change : TableChange) (creation : String)
    (indexes : List String) : List String :=
  let old := target.qualified change.new.qualifiedName
  let shadow := target.qualified change.shadowName
  let columns := target.identifierList change.copiedColumns
  List.flatten [
    ["PRAGMA defer_foreign_keys = ON"],
    if target.supports .transactionalDdl then ["BEGIN"] else [],
    [creation],
    if change.copiedColumns.isEmpty then []
    else [s!"INSERT INTO {shadow} ({columns})" ++ s!" SELECT {columns} FROM {old}"],
    [s!"DROP TABLE {old}",
      s!"ALTER TABLE {shadow}" ++ s!" RENAME TO {target.identifier change.new.name}"],
    indexes,
    if target.supports .transactionalDdl then ["COMMIT"] else []]

theorem recreationText_eq_bind :
    target.recreationText change = do
      let creation ← target.alwaysCreating.createTableText change.shadow
      let indexes ← change.new.indexes.mapM fun index => (target.createIndexText index).whole
      return Text.join ";\n" (target.scriptTexts change creation indexes) := by
  have indexes : (change.new.indexes.map RecreationStep.createIndex).mapM
      (target.recreationStepText change) =
        change.new.indexes.mapM fun index => (target.createIndexText index).whole :=
    List.mapM_map ..
  unfold recreationText TableChange.recreationSteps scriptTexts
  -- Which steps there are is one matter, and which of them fails is another.
  cases target.supports .transactionalDdl <;> cases change.copiedColumns.isEmpty <;>
  · simp only [Bool.false_eq_true, if_true, if_false, List.flatten_cons, List.flatten_nil,
      List.cons_append, List.nil_append, List.append_nil, List.mapM_cons, List.mapM_append,
      List.mapM_nil, indexes]
    simp only [recreationStepText]
    cases target.alwaysCreating.createTableText change.shadow with
    | error failure => rfl
    | ok creation =>
      cases change.new.indexes.mapM fun index => (target.createIndexText index).whole with
      | error failure => rfl
      | ok texts => rfl

theorem alterTable_of_requiresRecreation
    (anew : change.requiresRecreation target.capabilities = true) :
    target.alterTable change =
      (target.recreationText change).map fun script =>
        [target.statementWith (.recreateTable change) script] := by
  have sqlite := TableChange.family_of_requiresRecreation anew
  rw [alterTable, TableChange.actions_of_requiresRecreation sqlite anew, statements,
    List.mapM_cons, List.mapM_nil, statement, actionText]
  cases target.recreationText change <;> rfl

/-! ## The shadow table and the new version -/

theorem verdict_alwaysCreating (table : Table) :
    verdict (target.alwaysCreating.createTableText table) =
      verdict (target.createTableText table) :=
  @verdict_createTableText target { target.options with ifNotExists := false } table

theorem createTableFront_alwaysCreating (sqlite : target.family = .sqlite) (table : Table) :
    target.alwaysCreating.createTableFront table = "CREATE TABLE " ∨
      target.alwaysCreating.createTableFront table = "CREATE TEMPORARY TABLE " := by
  have other : (target.alwaysCreating.family = .postgres) = False := by
    rw [show target.alwaysCreating.family = .sqlite from sqlite]
    simp
  unfold createTableFront createTableVerb
  simp only [other, decide_false, Bool.and_false, Bool.false_and, Bool.false_eq_true, if_false]
  cases table.options.temporary with
  | true => exact .inr rfl
  | false => exact .inl rfl

theorem createTableText_shadow (target : Target) (change : TableChange) :
    (∃ lines ending,
      target.alwaysCreating.createTableText change.new =
        .ok (target.alwaysCreating.createTableFront change.new
          ++ target.qualified change.new.qualifiedName ++ " (\n"
          ++ target.createTableBody lines ending) ∧
      target.alwaysCreating.createTableText change.shadow =
        .ok (target.alwaysCreating.createTableFront change.new
          ++ target.qualified change.shadowName ++ " (\n"
          ++ target.createTableBody lines ending)) ∨
    ∃ faults failure other,
      TableFault.failure? target.dialect change.new.qualifiedName faults = some failure ∧
      TableFault.failure? target.dialect change.shadowName faults = some other ∧
      target.alwaysCreating.createTableText change.new = .error failure ∧
      target.alwaysCreating.createTableText change.shadow = .error other :=
  createTableText_under target.alwaysCreating change.new change.shadowName.name

theorem succeeds_shadow_iff :
    Succeeds (target.alwaysCreating.createTableText change.shadow) ↔
      Succeeds (target.createTableText change.new) := by
  have same : Succeeds (target.alwaysCreating.createTableText change.new) ↔
      Succeeds (target.createTableText change.new) := by
    rw [← succeeds_verdict, verdict_alwaysCreating, succeeds_verdict]
  rw [← same]
  rcases createTableText_shadow target change with
    ⟨_, _, written, rewritten⟩ | ⟨_, _, _, _, _, failed, failedAgain⟩
  · rw [written, rewritten]
    simp only [succeeds_ok]
  · rw [failed, failedAgain]
    simp only [not_succeeds_error]

theorem succeeds_alterTable_iff (anew : change.requiresRecreation target.capabilities = true) :
    Succeeds (target.alterTable change) ↔
      Succeeds (target.statement (.createTable change.new)) ∧
        ∀ index ∈ change.new.indexes, Succeeds (target.statement (.createIndex index)) := by
  simp only [succeeds_statement, actionText, succeeds_whole]
  rw [alterTable_of_requiresRecreation anew, succeeds_map, recreationText_eq_bind,
    succeeds_bind_of_forall _ fun _ => succeeds_bind_of_total fun _ => succeeds_pure _,
    succeeds_shadow_iff, succeeds_mapM]
  simp only [succeeds_whole]

/-- Building a table anew succeeds if and only if the new version and its indexes can be created.
Where the new version cannot, building it fails for the same faults, but it is never the same
failure: all of them are told of the shadow table. -/
theorem recreation_retells_creation (anew : change.requiresRecreation target.capabilities = true) :
    (Succeeds (target.alterTable change) ↔
      Succeeds (target.statement (.createTable change.new)) ∧
        ∀ index ∈ change.new.indexes, Succeeds (target.statement (.createIndex index))) ∧
    ∀ failure, target.statement (.createTable change.new) = .error failure →
      ∃ faults other,
        TableFault.failure? target.dialect change.new.qualifiedName faults = some failure ∧
        TableFault.failure? target.dialect change.shadowName faults = some other ∧
        target.alterTable change = .error other ∧ other ≠ failure := by
  refine ⟨succeeds_alterTable_iff anew, fun failure refused => ?_⟩
  have failed : target.alwaysCreating.createTableText change.new = .error failure := by
    rw [← verdict_eq_error_iff, verdict_alwaysCreating, verdict_eq_error_iff]
    exact map_eq_error_iff.mp refused
  rcases createTableText_shadow target change with
    ⟨_, _, written, _⟩ | ⟨faults, same, other, told, retold, failedAgain, failedAnew⟩
  · rw [failed] at written
    cases written
  · rw [failed] at failedAgain
    cases failedAgain
    have different := TableFault.failure_ne change.length_name_lt told retold
    refine ⟨faults, other, told, retold, ?_, different⟩
    rw [alterTable_of_requiresRecreation anew, recreationText_eq_bind, failedAnew]
    rfl

end Target

namespace RebuildingExample

def target : Target := ⟨Capabilities.sqlite, {}⟩

def byId : Index where
  name := "by_id"
  table := ⟨none, "pages"⟩
  keys := [{ target := .column "id" }]

def pages (columns : List Column) : Table where
  name := "pages"
  columns := columns
  indexes := [byId]

def id (type : String) : Column := { name := "id", dataType := type }

def retyped : TableChange := ⟨pages [id "integer"], pages [id "text"]⟩

def numbered : TableChange :=
  ⟨pages [id "integer"], pages [{ id "integer" with autoIncrement := true }]⟩

def script : String :=
  "PRAGMA defer_foreign_keys = ON;\nBEGIN;\n"
    ++ "CREATE TABLE _pages_new (\n    id text\n);\n"
    ++ "INSERT INTO _pages_new (id) SELECT id FROM pages;\n"
    ++ "DROP TABLE pages;\nALTER TABLE _pages_new RENAME TO pages;\n"
    ++ "CREATE INDEX by_id ON pages (id);\nCOMMIT"

/-- What is wrong with a table of a name. -/
def failure (name : String) : Failure :=
  .one (.invalidAutoIncrement ⟨none, name⟩ "id" "integer" .sqlite)

end RebuildingExample

open RebuildingExample in
theorem recreation_retells_creation_pages :
    retyped.requiresRecreation target.capabilities = true ∧
      Succeeds (target.alterTable retyped) ∧
    numbered.requiresRecreation target.capabilities = true ∧
      target.statement (.createTable numbered.new) = .error (failure "pages") ∧
      ∃ other, target.alterTable numbered = .error other ∧ other ≠ failure "pages" := by
  have anew : retyped.requiresRecreation target.capabilities = true := by decide +kernel
  have numbers : numbered.requiresRecreation target.capabilities = true := by decide +kernel
  have table : Succeeds (target.statement (.createTable retyped.new)) := by
    decide +kernel
  have indexes : ∀ index ∈ retyped.new.indexes,
      Succeeds (target.statement (.createIndex index)) := by
    intro index member
    rw [List.mem_singleton.mp member]
    exact ⟨_, rfl⟩
  have refused : target.statement (.createTable numbered.new) = .error (failure "pages") := by
    decide +kernel
  obtain ⟨_, other, _, _, failed, different⟩ :=
    (Target.recreation_retells_creation numbers).2 _ refused
  have done := (Target.recreation_retells_creation anew).1.mpr ⟨table, indexes⟩
  exact ⟨anew, done, numbers, refused, other, failed, different⟩

open RebuildingExample in
/-- Who asks for a change of the pages is told of a table that no schema has. -/
theorem recreation_blames_shadow_pages :
    numbered.requiresRecreation target.capabilities = true ∧
      target.statement (.createTable numbered.new) = .error (failure "pages") ∧
      target.alterTable numbered = .error (failure "_pages_new") ∧
      failure "_pages_new" ≠ failure "pages" := by
  decide +kernel

/-! ## The script as a whole -/

namespace Target

variable {target : Target} {change : TableChange} {statements : List Statement}

theorem exists_script (sqlite : target.family = .sqlite) {script : String}
    (written : target.recreationText change = .ok script) :
    ∃ verb body indexes, (verb = "CREATE TABLE " ∨ verb = "CREATE TEMPORARY TABLE ") ∧
      target.alwaysCreating.createTableText change.new =
        .ok (verb ++ target.qualified change.new.qualifiedName ++ " (\n" ++ body) ∧
      List.Forall₂ (fun index text => target.createIndexText index = .ok text)
        change.new.indexes indexes ∧
      script = Text.join ";\n" (target.scriptTexts change
        (verb ++ target.qualified change.shadowName ++ " (\n" ++ body) indexes) := by
  rw [recreationText_eq_bind] at written
  obtain ⟨creation, creationOk, rest⟩ := bind_eq_ok_iff.mp written
  obtain ⟨indexes, indexesOk, equal⟩ := bind_eq_ok_iff.mp rest
  cases equal
  have created : List.Forall₂ (fun index text => target.createIndexText index = .ok text)
      change.new.indexes indexes :=
    (mapM_eq_ok_iff.mp indexesOk).imp fun _ _ indexOk => whole_eq_ok_iff.mp indexOk
  have verbs := createTableFront_alwaysCreating sqlite change.new
  rcases createTableText_shadow target change with
    ⟨lines, ending, newOk, shadowOk⟩ | ⟨_, _, _, _, _, _, failed⟩
  · rw [shadowOk] at creationOk
    cases creationOk
    exact ⟨_, _, indexes, verbs, newOk, created, rfl⟩
  · rw [creationOk] at failed
    cases failed

/-- A table is built anew by one script: the shadow table is created in the words that create the
new version, it takes over the columns that are computed in neither version, and it takes the place
of the table before the indexes are created. -/
theorem recreation_script (anew : change.requiresRecreation target.capabilities = true)
    (written : target.alterTable change = .ok statements) :
    change.copiedColumns.Sublist (change.new.columns.map (·.name)) ∧
    (∀ name, name ∈ change.copiedColumns ↔ ∃ pair, change.KeepsColumn pair ∧
      pair.new.name = name ∧ pair.old.isGenerated = false ∧ pair.new.isGenerated = false) ∧
    ∃ statement verb body indexes, statements = [statement] ∧
      (verb = "CREATE TABLE " ∨ verb = "CREATE TEMPORARY TABLE ") ∧
      target.alwaysCreating.createTableText change.new =
        .ok (verb ++ target.qualified change.new.qualifiedName ++ " (\n" ++ body) ∧
      List.Forall₂ (fun index text => target.createIndexText index = .ok text)
        change.new.indexes indexes ∧
      statement.sql = Text.join ";\n" (target.scriptTexts change
        (verb ++ target.qualified change.shadowName ++ " (\n" ++ body) indexes) := by
  refine ⟨change.copiedColumns_sublist, fun _ => TableChange.mem_copiedColumns, ?_⟩
  rw [alterTable_of_requiresRecreation anew] at written
  obtain ⟨script, scriptOk, rfl⟩ := map_eq_ok_iff.mp written
  obtain ⟨verb, body, indexes, verbs, newOk, created, whole⟩ :=
    exists_script (TableChange.family_of_requiresRecreation anew) scriptOk
  exact ⟨_, verb, body, indexes, rfl, verbs, newOk, created, whole⟩

end Target

open RebuildingExample in
theorem recreation_script_pages :
    retyped.requiresRecreation target.capabilities = true ∧
      ∃ statement, target.alterTable retyped = .ok [statement] ∧ statement.sql = script ∧
        ∃ verb body indexes,
          target.alwaysCreating.createTableText retyped.new =
            .ok (verb ++ target.qualified ⟨none, "pages"⟩ ++ " (\n" ++ body) ∧
          script = Text.join ";\n" (target.scriptTexts retyped
            (verb ++ target.qualified ⟨none, "_pages_new"⟩ ++ " (\n" ++ body) indexes) := by
  have anew : retyped.requiresRecreation target.capabilities = true := by decide +kernel
  have written : ∃ statement, target.alterTable retyped = .ok [statement] ∧
      statement.sql = script := by
    decide +kernel
  obtain ⟨statement, done, sql⟩ := written
  obtain ⟨_, _, _, verb, body, indexes, same, _, created, _, texts⟩ :=
    Target.recreation_script anew done
  cases same
  exact ⟨anew, statement, done, sql, verb, body, indexes, created, sql.symm.trans texts⟩

end SchemaDdl
