import SchemaDdl.Capability.BuiltIn
import SchemaDdl.Proofs.Plan.Constraints

/-!
# Values that a recreation takes over

A table that is built anew takes over the values of the columns that are computed neither before nor
after. Every reason why values are lost flags the recreation, but for one: a column that is computed
no longer loses those it had.
-/

namespace SchemaDdl

namespace TableChange

variable {change : TableChange} {name : String} {transactional : Bool}

/-- Whether a step of the recreation copies the values of a column. -/
def CopiesColumn (change : TableChange) (transactional : Bool) (name : String) : Prop :=
  ∃ columns, .copy columns ∈ change.recreationSteps transactional ∧ name ∈ columns

theorem copiesColumn_iff_mem : change.CopiesColumn transactional name ↔
    name ∈ change.copiedColumns := by
  constructor
  · intro copies
    rcases copies with ⟨columns, step, member⟩
    have copied : RecreationStep.copy columns ∈ (if change.copiedColumns.isEmpty then []
        else [RecreationStep.copy change.copiedColumns]) := by
      cases transactional <;> simpa [recreationSteps] using step
    split at copied
    · cases copied
    · cases List.mem_singleton.mp copied
      exact member
  · intro member
    have some : change.copiedColumns.isEmpty = false :=
      List.isEmpty_eq_false_iff_exists_mem.mpr ⟨name, member⟩
    exact ⟨change.copiedColumns, by simp [recreationSteps, some], member⟩

theorem copiesColumn_iff : change.CopiesColumn transactional name ↔
    ∃ pair, change.KeepsColumn pair ∧ pair.new.name = name ∧ pair.old.isGenerated = false ∧
      pair.new.isGenerated = false := by
  simp only [copiesColumn_iff_mem, copiedColumns, List.mem_map, List.mem_filter, Bool.and_eq_true,
    Bool.not_eq_true', Option.any_eq_true]
  constructor
  · intro holds
    rcases holds with ⟨column, ⟨member, after, old, found, before⟩, named⟩
    exact ⟨⟨old, column⟩, ⟨member, found⟩, named, before, after⟩
  · intro holds
    rcases holds with ⟨pair, keeps, named, before, after⟩
    exact ⟨pair.new, ⟨keeps.1, after, pair.old, keeps.2, before⟩, named⟩

theorem copiesKeptColumns_iff :
    (∀ pair, change.KeepsColumn pair → pair.new.isGenerated = false →
        change.CopiesColumn transactional pair.new.name) ↔
      ∀ pair, change.KeepsColumn pair → pair.old.isGenerated = true →
        pair.new.isGenerated = true := by
  constructor
  · intro copies pair keeps before
    cases after : pair.new.isGenerated with
    | true => rfl
    | false =>
        -- The column of that name that is copied has the same old version.
        rcases copiesColumn_iff.mp (copies pair keeps after) with ⟨other, held, named, plain, _⟩
        have same : other.old = pair.old := Option.some.inj (held.2.symm.trans (named ▸ keeps.2))
        rw [same, before] at plain
        cases plain
  · intro stays pair keeps after
    refine copiesColumn_iff.mpr ⟨pair, keeps, rfl, ?_, after⟩
    exact Bool.eq_false_iff.mpr fun before =>
      Bool.eq_false_iff.mp after (stays pair keeps before)

theorem eq_recreateTable_of_mem_actions {capabilities : Capabilities} {comments : Bool}
    {action : Action} (member : action ∈ change.actions capabilities comments)
    (recreates : action.operation = .recreateTable) : action = .recreateTable change := by
  cases alters_of_mem_actions action member with
  | recreated => rfl
  | part part =>
      rw [recreates] at part
      cases part
  | _ => cases recreates

theorem exists_new_of_not_isDestructive (unflagged : change.isDestructive = false)
    {column : Column} (member : column ∈ change.old.columns) :
    ∃ other ∈ change.new.columns, other.name = column.name := by
  by_contra lost
  have removed : column ∈ change.removed :=
    mem_removed.mpr ⟨member, fun other among named => lost ⟨other, among, named⟩⟩
  have flagged : change.isDestructive = true := by
    simp [isDestructive, List.ne_nil_of_mem removed]
  exact Bool.eq_false_iff.mp unflagged flagged

end TableChange

/-- A recreation that is not flagged loses no column. It takes over the values of all columns that
are not computed unless one of them was computed before. -/
theorem Target.recreation_copies_iff {target : Target} {change : TableChange}
    {statements : List Statement} {statement : Statement}
    (written : target.alterTable change = .ok statements) (member : statement ∈ statements)
    (recreates : statement.operation = .recreateTable)
    (unflagged : statement.destructive = false) :
    target.recreationText change = .ok statement.sql ∧
      (∀ column ∈ change.old.columns, ∃ other ∈ change.new.columns, other.name = column.name) ∧
      ((∀ pair, change.KeepsColumn pair → pair.new.isGenerated = false →
          change.CopiesColumn (target.supports .transactionalDdl) pair.new.name) ↔
        ∀ pair, change.KeepsColumn pair → pair.old.isGenerated = true →
          pair.new.isGenerated = true) := by
  rcases exists_item_of_mapM written member with ⟨action, actionMember, statementOk⟩
  have equal : action = .recreateTable change :=
    TableChange.eq_recreateTable_of_mem_actions actionMember
      ((operation_of_statement statementOk).symm.trans recreates)
  rw [equal] at statementOk
  have destructive : change.isDestructive = false :=
    (destructive_of_statement statementOk).symm.trans unflagged
  rcases statement_eq_ok_iff.mp statementOk with ⟨sql, text, rfl⟩
  exact ⟨text, fun _ => TableChange.exists_new_of_not_isDestructive destructive,
    TableChange.copiesKeptColumns_iff⟩

/-! ## An example -/

namespace RecreationExample

def title : Column := { name := "title", dataType := "text" }

def views (type : String) : Column := { name := "views", dataType := type }

def slug : Column := { name := "slug", dataType := "text" }

def computedSlug : Column :=
  { slug with generated := some { expression := "lower(title)", stored := true } }

def widened : TableChange where
  old := { name := "pages", columns := [title, computedSlug, views "integer"] }
  new := { name := "pages", columns := [title, computedSlug, views "bigint"] }

def settled : TableChange where
  old := { name := "pages", columns := [title, computedSlug] }
  new := { name := "pages", columns := [title, slug] }

end RecreationExample

open RecreationExample in
theorem recreation_copies_pages :
    ∃ statement, Target.alterTable ⟨Capabilities.sqlite, {}⟩ widened = .ok [statement] ∧
      statement.operation = .recreateTable ∧ statement.destructive = false ∧
      (∀ column ∈ widened.old.columns,
        ∃ other ∈ widened.new.columns, other.name = column.name) ∧
      ∀ pair, widened.KeepsColumn pair → pair.new.isGenerated = false →
        widened.CopiesColumn true pair.new.name := by
  have written : ∃ statement,
      Target.alterTable ⟨Capabilities.sqlite, {}⟩ widened = .ok [statement] ∧
        statement.operation = .recreateTable ∧ statement.destructive = false := by
    decide +kernel
  rcases written with ⟨statement, done, recreates, unflagged⟩
  rcases Target.recreation_copies_iff done (List.mem_singleton_self statement) recreates
    unflagged with ⟨_, kept, copies⟩
  have stays : ∀ column ∈ widened.new.columns, ∀ old ∈ widened.old.column? column.name,
      old.isGenerated = true → column.isGenerated = true := by decide +kernel
  exact ⟨statement, done, recreates, unflagged, kept,
    copies.mpr fun pair keeps => stays pair.new keeps.1 pair.old keeps.2⟩

open RecreationExample in
/-- The slugs of all pages are gone, and nothing says so. -/
theorem recreation_loses_computed_values_pages :
    ∃ statement, Target.alterTable ⟨Capabilities.sqlite, {}⟩ settled = .ok [statement] ∧
      statement.operation = .recreateTable ∧ statement.destructive = false ∧
      settled.KeepsColumn ⟨computedSlug, slug⟩ ∧ slug.isGenerated = false ∧
      ¬settled.CopiesColumn true "slug" ∧
      statement.sql = "PRAGMA defer_foreign_keys = ON;\nBEGIN;\n"
        ++ "CREATE TABLE _pages_new (\n    title text,\n    slug text\n);\n"
        ++ "INSERT INTO _pages_new (title) SELECT title FROM pages;\n"
        ++ "DROP TABLE pages;\nALTER TABLE _pages_new RENAME TO pages;\nCOMMIT" := by
  have written : ∃ statement,
      Target.alterTable ⟨Capabilities.sqlite, {}⟩ settled = .ok [statement] ∧
        statement.operation = .recreateTable ∧ statement.destructive = false ∧
        statement.sql = "PRAGMA defer_foreign_keys = ON;\nBEGIN;\n"
          ++ "CREATE TABLE _pages_new (\n    title text,\n    slug text\n);\n"
          ++ "INSERT INTO _pages_new (title) SELECT title FROM pages;\n"
          ++ "DROP TABLE pages;\nALTER TABLE _pages_new RENAME TO pages;\nCOMMIT" := by
    decide +kernel
  rcases written with ⟨statement, done, recreates, unflagged, text⟩
  refine ⟨statement, done, recreates, unflagged, ⟨by simp [settled], rfl⟩, rfl, ?_, text⟩
  rw [TableChange.copiesColumn_iff_mem]
  decide +kernel

end SchemaDdl
