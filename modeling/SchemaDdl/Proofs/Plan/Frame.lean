import SchemaDdl.Proofs.Plan.Emptiness

/-!
# Tables that a plan passes over

A table that both versions of a schema have in the same form, and whose name no other table has, is
nothing to a plan, wherever it stands. It is neither created nor dropped, it makes no other name
mean another table, and between it and itself there is no difference.
-/

namespace SchemaDdl

/-! ## One more item -/

section

variable {α β : Type} {items : List α} {item : α} {place : Nat} {holds : α → Bool}

theorem filter_inserted (passed : holds item = false) :
    (items.take place ++ item :: items.drop place).filter holds = items.filter holds := by
  calc (items.take place ++ item :: items.drop place).filter holds
      = (items.take place).filter holds ++ (items.drop place).filter holds := by
        rw [List.filter_append, List.filter_cons_of_neg (by simp [passed])]
    _ = items.filter holds := by
        rw [← List.filter_append, List.take_append_drop]

theorem find?_inserted (passed : holds item = false) :
    (items.take place ++ item :: items.drop place).find? holds = items.find? holds := by
  calc (items.take place ++ item :: items.drop place).find? holds
      = ((items.take place).find? holds).or ((items.drop place).find? holds) := by
        rw [List.find?_append, List.find?_cons_of_neg (by simp [passed])]
    _ = items.find? holds := by
        rw [← List.find?_append, List.take_append_drop]

end

/-! ## One more table -/

/-- A schema with a table put in at a place, which is the end when there are fewer tables. -/
def Schema.insert (schema : Schema) (place : Nat) (table : Table) : Schema :=
  { schema with tables := schema.tables.take place ++ table :: schema.tables.drop place }

namespace Schema

variable {schema : Schema} {place : Nat} {table : Table} {defaultSchema : String}

theorem tableMatching?_insert {name : QualifiedName}
    (other : table.qualifiedName.agrees defaultSchema name = false) :
    (schema.insert place table).tableMatching? defaultSchema name =
      schema.tableMatching? defaultSchema name :=
  find?_inserted other

theorem tableMatching?_insert_self
    (free : schema.tableMatching? defaultSchema table.qualifiedName = none) :
    (schema.insert place table).tableMatching? defaultSchema table.qualifiedName = some table := by
  have before : (schema.tables.take place).find?
      (·.qualifiedName.agrees defaultSchema table.qualifiedName) = none := by
    rw [List.find?_eq_none]
    exact fun other member => List.find?_eq_none.mp free other (List.mem_of_mem_take member)
  unfold tableMatching? insert
  rw [List.find?_append, before, Option.none_or]
  exact List.find?_cons_of_pos (QualifiedName.agrees_self _)

end Schema

/-! ## The comparison of two versions -/

namespace SchemaChange

/-- The change between two versions to which a table is added. -/
def insert (change : SchemaChange) (oldPlace newPlace : Nat) (table : Table) : SchemaChange :=
  ⟨change.old.insert oldPlace table, change.new.insert newPlace table, change.defaultSchema⟩

structure Free (change : SchemaChange) (table : Table) : Prop where
  old : change.old.tableMatching? change.defaultSchema table.qualifiedName = none
  new : change.new.tableMatching? change.defaultSchema table.qualifiedName = none

variable {change : SchemaChange} {table : Table}

section

variable (free : change.Free table) (oldPlace newPlace : Nat)

include free

theorem old_tableMatching?_insert {other : Table} (member : other ∈ change.new.tables) :
    (change.old.insert oldPlace table).tableMatching? change.defaultSchema other.qualifiedName =
      change.old.tableMatching? change.defaultSchema other.qualifiedName := by
  have apart := Schema.tableMatching?_eq_none_iff.mp free.new other member
  refine Schema.tableMatching?_insert (Bool.eq_false_iff.mpr fun same => ?_)
  cases apart.symm.trans (QualifiedName.agrees_symm same)

theorem new_tableMatching?_insert {other : Table} (member : other ∈ change.old.tables) :
    (change.new.insert newPlace table).tableMatching? change.defaultSchema other.qualifiedName =
      change.new.tableMatching? change.defaultSchema other.qualifiedName := by
  have apart := Schema.tableMatching?_eq_none_iff.mp free.old other member
  refine Schema.tableMatching?_insert (Bool.eq_false_iff.mpr fun same => ?_)
  cases apart.symm.trans (QualifiedName.agrees_symm same)

theorem createdTables_insert :
    (change.insert oldPlace newPlace table).createdTables = change.createdTables := by
  let missing (other : Table) : Bool :=
    ((change.old.insert oldPlace table).tableMatching? change.defaultSchema
      other.qualifiedName).isNone
  have passed : missing table = false := by
    dsimp only [missing]
    rw [Schema.tableMatching?_insert_self free.old]
    rfl
  calc (change.insert oldPlace newPlace table).createdTables
      = change.new.tables.filter missing := filter_inserted passed
    _ = change.createdTables := List.filter_congr fun other member =>
        congrArg Option.isNone (old_tableMatching?_insert free oldPlace member)

theorem droppedTables_insert :
    (change.insert oldPlace newPlace table).droppedTables = change.droppedTables := by
  let missing (other : Table) : Bool :=
    ((change.new.insert newPlace table).tableMatching? change.defaultSchema
      other.qualifiedName).isNone
  have passed : missing table = false := by
    dsimp only [missing]
    rw [Schema.tableMatching?_insert_self free.new]
    rfl
  calc (change.insert oldPlace newPlace table).droppedTables
      = change.old.tables.filter missing := filter_inserted passed
    _ = change.droppedTables := List.filter_congr fun other member =>
        congrArg Option.isNone (new_tableMatching?_insert free newPlace member)

theorem keptTables_insert : ∃ before after, change.keptTables = before ++ after ∧
    (change.insert oldPlace newPlace table).keptTables = before ++ ⟨table, table⟩ :: after := by
  let pairing (old : Schema) (new : Table) : Option TableChange :=
    (old.tableMatching? change.defaultSchema new.qualifiedName).map (⟨·, new⟩)
  have same : ∀ other ∈ change.new.tables,
      pairing (change.old.insert oldPlace table) other = pairing change.old other :=
    fun other member => congrArg (Option.map (TableChange.mk · other))
      (old_tableMatching?_insert free oldPlace member)
  have self : pairing (change.old.insert oldPlace table) table = some ⟨table, table⟩ :=
    congrArg (Option.map (TableChange.mk · table)) (Schema.tableMatching?_insert_self free.old)
  have front : (change.new.tables.take newPlace).filterMap
      (pairing (change.old.insert oldPlace table)) =
        (change.new.tables.take newPlace).filterMap (pairing change.old) :=
    List.filterMap_congr fun other member => same other (List.mem_of_mem_take member)
  have back : (change.new.tables.drop newPlace).filterMap
      (pairing (change.old.insert oldPlace table)) =
        (change.new.tables.drop newPlace).filterMap (pairing change.old) :=
    List.filterMap_congr fun other member => same other (List.mem_of_mem_drop member)
  refine ⟨(change.new.tables.take newPlace).filterMap (pairing change.old),
    (change.new.tables.drop newPlace).filterMap (pairing change.old), ?_, ?_⟩
  · rw [← List.filterMap_append, List.take_append_drop]
    rfl
  · rw [← front, ← back, ← List.filterMap_cons_some self, ← List.filterMap_append]
    rfl

theorem flatMap_keptTables_insert {β : Type} (found : TableChange → List β)
    (nothing : found ⟨table, table⟩ = []) :
    (change.insert oldPlace newPlace table).keptTables.flatMap found =
      change.keptTables.flatMap found := by
  rcases keptTables_insert free oldPlace newPlace with ⟨before, after, kept, inserted⟩
  rw [inserted, kept, List.flatMap_append, List.flatMap_cons, nothing, List.nil_append,
    List.flatMap_append]

omit free in
theorem securingActions_insert (named : List String) (policies : List Policy) :
    (change.insert oldPlace newPlace table).securingActions named policies =
      change.securingActions named policies := by
  induction policies generalizing named with
  | nil => rfl
  | cons policy policies induction =>
    have secured : (change.insert oldPlace newPlace table).isSecured policy.table =
        change.isSecured policy.table := rfl
    rw [securingActions, securingActions, secured, induction, induction]

theorem steps_insert (wellFormed : table.WellFormed) (capabilities : Capabilities)
    (comments : Bool) :
    (change.insert oldPlace newPlace table).steps capabilities comments =
      change.steps capabilities comments := by
  have creations : (change.insert oldPlace newPlace table).creationSteps capabilities comments =
      change.creationSteps capabilities comments := by
    rw [creationSteps, createdTables_insert free]
    rfl
  have drops : (change.insert oldPlace newPlace table).dropSteps = change.dropSteps := by
    rw [dropSteps, droppedTables_insert free]
    rfl
  have alterations := flatMap_keptTables_insert free oldPlace newPlace
    (·.steps capabilities comments) (TableChange.steps_of_equivalent (.refl table) wellFormed)
  have policies : (change.insert oldPlace newPlace table).policySteps = change.policySteps := by
    rw [policySteps, securingActions_insert]
    rfl
  rw [steps, creations, alterations, drops, policies]
  rfl

theorem warnings_insert :
    (change.insert oldPlace newPlace table).warnings = change.warnings := by
  have tableRenames : (change.insert oldPlace newPlace table).tableRenames =
      change.tableRenames := by
    rw [SchemaChange.tableRenames, createdTables_insert free, droppedTables_insert free]
    rfl
  have cycles : (change.insert oldPlace newPlace table).cycleWarnings = change.cycleWarnings := by
    rw [cycleWarnings, createdTables_insert free]
    rfl
  have columnRenames := flatMap_keptTables_insert free oldPlace newPlace (·.renameWarnings)
    (TableChange.renameWarnings_of_equivalent (.refl table))
  rw [warnings, tableRenames, cycles, columnRenames]
  rfl

end

end SchemaChange

/-! ## Plans -/

/-- A table with names apart and defaults that equal themselves, whose name no table of either
version has, may be put into both versions anywhere without a change to the plan, or to its failure.
-/
theorem Target.plan_insert {target : Target} {old new : Schema} {table : Table}
    (wellFormed : table.WellFormed)
    (oldFree : old.tableMatching? target.capabilities.defaultSchema table.qualifiedName = none)
    (newFree : new.tableMatching? target.capabilities.defaultSchema table.qualifiedName = none)
    (oldPlace newPlace : Nat) :
    target.plan (old.insert oldPlace table) (new.insert newPlace table) = target.plan old new := by
  have free : (target.schemaChange old new).Free table := ⟨oldFree, newFree⟩
  have steps := SchemaChange.steps_insert free oldPlace newPlace wellFormed target.capabilities
    target.options.comments
  have warnings := SchemaChange.warnings_insert free oldPlace newPlace
  calc target.plan (old.insert oldPlace table) (new.insert newPlace table)
      = do
        let change := (target.schemaChange old new).insert oldPlace newPlace table
        let steps := change.steps target.capabilities target.options.comments
        let statements ← steps.mapM target.stepStatement
        return { statements := inPhaseOrder statements, warnings := change.warnings } := rfl
    _ = target.plan old new := by
        dsimp only
        rw [steps, warnings]
        rfl

/-! ## An example -/

namespace FrameExample

def title : Column := { name := "title", dataType := "text" }

def slug : Column := { name := "slug", dataType := "text", default := some (.literal (.string "")) }

def pages : Table := { name := "pages", columns := [title] }

def newPages : Table := { pages with columns := [title, slug] }

def drafts : Table where
  name := "drafts"
  columns := [title, slug]
  indexes :=
    [{ name := "by_slug", table := .plain "drafts", keys := [{ target := .column "slug" }] }]

def old : Schema := { tables := [pages] }

def new : Schema := { tables := [newPages] }

theorem drafts_wellFormed : drafts.WellFormed where
  columns := by decide
  indexes := by decide
  defaults := by simp [drafts, title, slug, Default.IsDefinite, Literal.IsDefinite]

def ratios : Table where
  name := "ratios"
  columns :=
    [{ name := "ratio", dataType := "real", default := some (.literal (.float .nan)) }]

end FrameExample

open FrameExample in
/-- Drafts before the pages and after them add nothing to the change of the pages. -/
theorem Target.plan_insert_pages :
    drafts.WellFormed ∧
      old.tableMatching? Capabilities.postgres.defaultSchema drafts.qualifiedName = none ∧
      new.tableMatching? Capabilities.postgres.defaultSchema drafts.qualifiedName = none ∧
      Target.plan ⟨Capabilities.postgres, {}⟩ (old.insert 0 drafts) (new.insert 1 drafts) =
        Target.plan ⟨Capabilities.postgres, {}⟩ old new := by
  have oldFree : old.tableMatching? Capabilities.postgres.defaultSchema drafts.qualifiedName =
      none := rfl
  have newFree : new.tableMatching? Capabilities.postgres.defaultSchema drafts.qualifiedName =
      none := rfl
  exact ⟨drafts_wellFormed, oldFree, newFree,
    Target.plan_insert drafts_wellFormed oldFree newFree 0 1⟩

open FrameExample in
theorem Target.plan_insert_undefined_ratios :
    Apart (·.name == ·.name) ratios.columns ∧ Apart (·.name == ·.name) ratios.indexes ∧
      old.tableMatching? Capabilities.postgres.defaultSchema ratios.qualifiedName = none ∧
      new.tableMatching? Capabilities.postgres.defaultSchema ratios.qualifiedName = none ∧
      Succeeds (Target.plan ⟨Capabilities.postgres, {}⟩ old new) ∧
      Target.plan ⟨Capabilities.postgres, {}⟩ (old.insert 0 ratios) (new.insert 1 ratios) =
        .error (.one (.unsupportedDefault (.plain "ratios") "ratio" (.notFinite .nan))) := by
  decide +kernel

end SchemaDdl
