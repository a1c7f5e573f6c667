import SchemaDdl.Proofs.Plan.Emptiness
import SchemaDdl.Proofs.Plan.Triggers
import SchemaDdl.Proofs.Schema.DefaultSchema

/-!
# Plans between spellings of a schema

Names mean the same object when they differ in nothing but the default schema, and a plan finds
every object of one version in the other. What a table says of tables is compared as it is spelled,
though: the targets of foreign keys, the owners of indexes and the parents. Where one of these is
spelled otherwise, the plan has a statement or cannot be made.
-/

namespace SchemaDdl

/-! ## What is compared as it is spelled -/

/-- The constraints of a table beside its primary key, each with its name. -/
def Table.constraintKeys (table : Table) : List (String × ConstraintKind) :=
  table.namedConstraints.map fun (name, constraint) => (name, constraint.kind)

/-- Whether two versions of a table spell other tables, and themselves in their indexes, alike. -/
structure Table.SpelledAlike (old new : Table) : Prop where
  references : old.columns.map (·.references) = new.columns.map (·.references)
  constraints : ∀ key, key ∈ old.constraintKeys ↔ key ∈ new.constraintKeys
  indexes : old.indexes.map (·.table) = new.indexes.map (·.table)
  inherits : old.inherits = new.inherits

/-! ## Versions side by side -/

section

variable {α : Type} {same : α → α → Bool} {Related : α → α → Prop} {olds news : List α}

/-- Where objects are apart and each one matches the one at its place, what is true of an object and
of the one that is found for it is true place by place. -/
theorem Apart.forall_found_iff (apart : Apart same olds) (matching : Matches same)
    (alike : List.Forall₂ (fun old new => same old new = true) olds news) :
    (∀ new ∈ news, ∀ old, olds.find? (same · new) = some old → Related old new) ↔
      List.Forall₂ Related olds news := by
  constructor
  · intro each
    refine List.forall₂_iff_zip.mpr ⟨alike.length_eq, fun {old new} member => ?_⟩
    have matched : same old new = true := (List.forall₂_iff_zip.mp alike).2 member
    rcases List.of_mem_zip member with ⟨oldMember, newMember⟩
    exact each new newMember old (apart.find?_of_same matching oldMember matched)
  · intro related new newMember old found
    have both := List.Forall₂.mp (fun _ _ => And.intro) alike related
    rcases exists_of_forall₂ both newMember with ⟨held, heldMember, matched, holds⟩
    have meant := apart.find?_of_same matching heldMember matched
    rw [Option.some.inj (found.symm.trans meant)]
    exact holds

end

theorem map_eq_map_iff_forall₂ {α β : Type} {image : α → β} {olds news : List α} :
    olds.map image = news.map image ↔
      List.Forall₂ (fun old new => image old = image new) olds news := by
  rw [← List.forall₂_eq_eq_eq, List.forall₂_map_left_iff, List.forall₂_map_right_iff]

/-! ## Tables -/

theorem ColumnChange.isChange_of_alike {change : ColumnChange}
    (alike : change.old.Alike change.new) : change.isChange = change.referencesChanged := by
  have type : ColumnChange.typeSignature change.old = ColumnChange.typeSignature change.new := by
    simp only [typeSignature, Column.canonicalType, Column.isArray, alike.dataType,
      alike.arrayDimensions]
  simp [isChange, isStructural, typeChanged, nullabilityChanged, defaultChanged, identityChanged,
    generatedChanged, uniqueChanged, checkChanged, commentChanged, bne, type, alike.collation,
    alike.nullable, alike.default, alike.autoIncrement, alike.generated, alike.unique, alike.check,
    alike.comment]

theorem ColumnConstraint.foreignKey_actions_ne_nil (old new : Table) {change : ColumnChange}
    (changed : change.referencesChanged = true) :
    ColumnConstraint.foreignKey.actions old new change ≠ [] := by
  have different : change.old.references ≠ change.new.references := bne_iff_ne.mp changed
  unfold actions
  rw [if_pos (show ColumnConstraint.foreignKey.changed change = true from changed)]
  cases oldReference : change.old.references with
  | none =>
      cases newReference : change.new.references with
      | none => exact absurd (oldReference.trans newReference.symm) different
      | some reference => simp [kind?, oldReference, newReference]
  | some held =>
      cases newReference : change.new.references with
      | none => simp [kind?, oldReference, newReference]
      | some reference => simp [kind?, oldReference, newReference]

namespace TableChange

variable {change : TableChange} {capabilities : Capabilities} {comments : Bool}
  {defaultSchema : String}

theorem constraintsOnlyIn_eq_nil_iff {first second : Table} :
    constraintsOnlyIn first second = [] ↔
      ∀ key ∈ first.constraintKeys, key ∈ second.constraintKeys := by
  unfold constraintsOnlyIn Table.constraintKeys
  rw [List.filter_eq_nil_iff, List.forall_mem_map]
  refine forall_congr' fun named => forall_congr' fun _ => ?_
  simp [Prod.ext_iff]

theorem constraints_eq_nil_iff : change.addedConstraints = [] ∧ change.removedConstraints = [] ↔
    ∀ key, key ∈ change.old.constraintKeys ↔ key ∈ change.new.constraintKeys := by
  unfold addedConstraints removedConstraints
  rw [constraintsOnlyIn_eq_nil_iff, constraintsOnlyIn_eq_nil_iff]
  constructor
  · intro holds key
    exact ⟨holds.2 key, holds.1 key⟩
  · intro same
    exact ⟨fun key => (same key).mpr, fun key => (same key).mp⟩

section

variable (alike : change.old.Alike defaultSchema change.new)

include alike

theorem added_of_alike : change.added = [] := by
  apply added_eq_nil
  intro column member
  rcases exists_of_forall₂ alike.columns member with ⟨held, heldMember, same⟩
  exact ⟨held, heldMember, same.name⟩

theorem removed_of_alike : change.removed = [] := by
  apply removed_eq_nil
  intro column member
  rcases exists_of_forall₂ alike.columns.flip member with ⟨kept, keptMember, same⟩
  exact ⟨kept, keptMember, same.name.symm⟩

theorem indexRemovals_of_alike : change.indexRemovals = [] := by
  apply indexRemovals_eq_nil
  intro index member
  rcases exists_of_forall₂ alike.indexes.flip member with ⟨kept, keptMember, same⟩
  exact ⟨kept, keptMember, (beq_iff_eq.mp (Index.name_of_resolve same)).symm⟩

theorem isEmpty_iff_of_alike : change.isEmpty = true ↔ change.altered = [] ∧
    change.addedConstraints = [] ∧ change.removedConstraints = [] ∧
      change.old.inherits = change.new.inherits := by
  simp only [isEmpty, added_of_alike alike, removed_of_alike alike, primaryKeyChanged,
    optionsChanged, platformChanged, commentChanged, alike.primaryKey, alike.options,
    alike.partitioning, alike.platform, alike.comment, List.isEmpty_nil, bne_self_eq_false,
    Bool.false_or, Bool.true_and, Bool.not_false, Bool.and_true, Bool.and_eq_true,
    List.isEmpty_iff, Bool.not_eq_true', bne_eq_false_iff_eq, and_assoc]

theorem requiresRecreation_of_isEmpty (empty : change.isEmpty = true) :
    change.requiresRecreation capabilities = false := by
  rcases (isEmpty_iff_of_alike alike).mp empty with ⟨columns, added, removed, inherits⟩
  unfold requiresRecreation
  split
  · rfl
  · simp [added_of_alike alike, removed_of_alike alike, columns, added, removed, primaryKeyChanged,
      optionsChanged, alike.primaryKey, alike.options, alike.partitioning, inherits]

variable (wellFormed : change.old.WellFormed)

include wellFormed

theorem forall_keepsColumn_iff {Related : Column → Column → Prop} :
    (∀ pair, change.KeepsColumn pair → Related pair.old pair.new) ↔
      List.Forall₂ Related change.old.columns change.new.columns := by
  have names : List.Forall₂ (fun old new : Column => (old.name == new.name) = true)
      change.old.columns change.new.columns :=
    alike.columns.imp fun _ _ same => beq_iff_eq.mpr same.name
  rw [← wellFormed.columns.forall_found_iff matches_texts names]
  constructor
  · intro each new member old found
    exact each ⟨old, new⟩ ⟨member, found⟩
  · intro each pair keeps
    exact each pair.new keeps.1 pair.old keeps.2

theorem alike_of_keepsColumn {pair : ColumnChange} (keeps : change.KeepsColumn pair) :
    pair.old.Alike pair.new :=
  (forall_keepsColumn_iff alike wellFormed).mpr alike.columns pair keeps

theorem of_mem_altered {column : ColumnChange} (member : column ∈ change.altered) :
    column.old.Alike column.new ∧ column.referencesChanged = true := by
  rcases mem_altered.mp member with ⟨keeps, changed⟩
  have same := alike_of_keepsColumn alike wellFormed keeps
  rw [ColumnChange.isChange_of_alike same] at changed
  exact ⟨same, changed⟩

theorem altered_eq_nil_iff : change.altered = [] ↔
    change.old.columns.map (·.references) = change.new.columns.map (·.references) := by
  rw [map_eq_map_iff_forall₂, ← forall_keepsColumn_iff alike wellFormed,
    List.eq_nil_iff_forall_not_mem]
  refine forall_congr' fun pair => ?_
  rw [mem_altered, not_and]
  refine forall_congr' fun keeps => ?_
  have same := alike_of_keepsColumn alike wellFormed keeps
  rw [ColumnChange.isChange_of_alike same, ColumnChange.referencesChanged, bne_iff_ne, not_not]

theorem columnActions_ne_nil {column : ColumnChange} (member : column ∈ change.altered) :
    change.columnActions comments column ≠ [] := by
  rcases of_mem_altered alike wellFormed member with ⟨same, changed⟩
  have inPlace : column.regenerates = false := by
    simp [ColumnChange.regenerates, ColumnChange.generatedChanged, same.generated]
  have keyed := ColumnConstraint.foreignKey_actions_ne_nil change.old change.new changed
  unfold columnActions
  simp only [inPlace, Bool.false_eq_true, if_false, List.flatMap_cons]
  intro none
  simp only [List.append_eq_nil_iff] at none
  exact keyed none.1.2.2.1

theorem isEmpty_of_postgresActions (idle : change.postgresActions capabilities comments = []) :
    change.isEmpty = true := by
  unfold postgresActions at idle
  simp only [List.append_eq_nil_iff, List.map_eq_nil_iff, List.flatMap_eq_nil_iff] at idle
  rcases idle with ⟨⟨⟨⟨⟨⟨⟨⟨_, _⟩, columns⟩, removals⟩, _⟩, additions⟩, options⟩, _⟩, _⟩
  have added : change.addedConstraints = [] := List.map_eq_nil_iff.mp additions
  refine (isEmpty_iff_of_alike alike).mpr ⟨?_, added, ?_, ?_⟩
  · exact List.eq_nil_iff_forall_not_mem.mpr fun column member =>
      columnActions_ne_nil alike wellFormed member (columns column member)
  · rw [removedConstraintActions, List.map_eq_nil_iff, List.filter_eq_nil_iff] at removals
    refine List.eq_nil_iff_forall_not_mem.mpr fun named member => removals named member ?_
    simp [replaces, added]
  · by_contra different
    have changed : change.optionsChanged = true := by simp [optionsChanged, different]
    rw [if_pos changed] at options
    simp [refusals, actionIf, different] at options

theorem isEmpty_of_sqliteActions (sqlite : capabilities.family = .sqlite)
    (idle : change.sqliteActions capabilities = []) : change.isEmpty = true := by
  unfold sqliteActions at idle
  split at idle
  · cases idle
  · rename_i inPlace
    simp only [requiresRecreation, sqlite, Bool.or_eq_true, not_or, Bool.not_eq_true] at inPlace
    rcases inPlace with ⟨⟨⟨⟨⟨⟨_, columns⟩, added⟩, removed⟩, _⟩, options⟩, _⟩
    refine (isEmpty_iff_of_alike alike).mpr ⟨?_, by simpa using added, by simpa using removed, ?_⟩
    · refine List.eq_nil_iff_forall_not_mem.mpr fun column member => ?_
      have changed := (of_mem_altered alike wellFormed member).2
      have structural : column.isStructural = true := by
        simp [ColumnChange.isStructural, changed]
      exact List.any_eq_false.mp columns column member structural
    · by_contra different
      simp [optionsChanged, different] at options

theorem actions_eq_nil_iff :
    change.actions capabilities comments = [] ↔ change.isEmpty = true := by
  unfold actions
  split
  · exact iff_of_true rfl ‹_›
  · rename_i changed
    refine iff_of_false (fun idle => changed ?_) changed
    split at idle
    · exact isEmpty_of_postgresActions alike wellFormed idle
    · exact isEmpty_of_sqliteActions alike wellFormed ‹_› idle

theorem indexAdditions_eq_nil_iff : change.indexAdditions = [] ↔
    change.old.indexes.map (·.table) = change.new.indexes.map (·.table) := by
  have names : List.Forall₂ (fun old new : Index => (old.name == new.name) = true)
      change.old.indexes change.new.indexes := alike.indexes.imp fun _ _ => Index.name_of_resolve
  have tables : change.old.indexes.map (·.table) = change.new.indexes.map (·.table) ↔
      List.Forall₂ (fun old new : Index => old = new) change.old.indexes change.new.indexes := by
    rw [map_eq_map_iff_forall₂]
    constructor
    · exact List.Forall₂.mp (fun _ _ same => (Index.eq_iff_table_of_resolve same).mpr) alike.indexes
    · exact List.Forall₂.imp fun _ _ => congrArg Index.table
  rw [tables, ← wellFormed.indexes.forall_found_iff matches_texts names, indexAdditions,
    List.flatMap_eq_nil_iff]
  refine forall_congr' fun index => forall_congr' fun member => ?_
  cases found : change.old.indexes.find? (·.name == index.name) with
  | none =>
      rcases exists_of_forall₂ names member with ⟨old, oldMember, matched⟩
      exact absurd matched (List.find?_eq_none.mp found old oldMember)
  | some held =>
      dsimp only
      split
      · rename_i equal
        simpa using beq_iff_eq.mp equal
      · rename_i different
        simpa using fun equal => different (beq_iff_eq.mpr equal)

theorem steps_eq_nil_iff :
    change.steps capabilities comments = [] ↔ change.old.SpelledAlike change.new := by
  have spelled : change.actions capabilities comments = [] ∧ change.indexAdditions = [] ↔
      change.old.SpelledAlike change.new := by
    rw [actions_eq_nil_iff alike wellFormed, isEmpty_iff_of_alike alike,
      altered_eq_nil_iff alike wellFormed, indexAdditions_eq_nil_iff alike wellFormed]
    constructor
    · rintro ⟨⟨references, added, removed, inherits⟩, indexes⟩
      exact ⟨references, constraints_eq_nil_iff.mp ⟨added, removed⟩, indexes, inherits⟩
    · rintro ⟨references, constraints, indexes, inherits⟩
      rcases constraints_eq_nil_iff.mpr constraints with ⟨added, removed⟩
      exact ⟨⟨references, added, removed, inherits⟩, indexes⟩
  rw [← spelled]
  unfold steps alterationSteps
  split
  · rename_i recreated
    have changed : change.actions capabilities comments ≠ [] := by
      intro idle
      have empty := (actions_eq_nil_iff alike wellFormed).mp idle
      rw [requiresRecreation_of_isEmpty alike empty] at recreated
      cases recreated
    rw [List.map_eq_nil_iff]
    exact iff_of_false changed fun idle => changed idle.1
  · simp [indexRemovals_of_alike alike]

end

end TableChange

/-! ## Objects -/

theorem standing_ne_added {α : Type} [BEq α] {same : α → α → Bool} {olds news : List α}
    (alike : List.Forall₂ (fun old new => same old new = true) olds news) :
    ∀ object ∈ news, Standing.among olds (same · object) object ≠ .added := by
  intro object member added
  rcases exists_of_forall₂ alike member with ⟨old, oldMember, matched⟩
  cases (SchemaChange.standing_eq_added_iff.mp added old oldMember).symm.trans matched

namespace SchemaChange

variable {change : SchemaChange} {capabilities : Capabilities} {comments : Bool}

section

variable (alike : change.old.Alike change.defaultSchema change.new)

include alike

theorem trailingSteps_of_alike : change.trailingSteps = [] := by
  have views : change.viewSteps = [] := flatMap_steps_eq_nil (standing_ne_added alike.views)
  have functions : change.functionSteps = [] :=
    flatMap_steps_eq_nil (standing_ne_added alike.functions)
  have triggers : change.triggerSteps = [] :=
    flatMap_steps_eq_nil (standing_ne_added alike.triggers)
  have policies : change.policySteps = [] := policySteps_eq_nil (standing_ne_added alike.policies)
  rw [trailingSteps, views, functions, triggers, policies]
  rfl

theorem createdTables_of_alike : change.createdTables = [] := by
  apply createdTables_eq_nil
  intro table member
  rcases exists_of_forall₂ alike.tables member with ⟨old, oldMember, same⟩
  exact ⟨old, oldMember, same.agrees⟩

theorem droppedTables_of_alike : change.droppedTables = [] := by
  apply droppedTables_eq_nil
  intro table member
  rcases exists_of_forall₂ alike.tables.flip member with ⟨new, newMember, same⟩
  exact ⟨new, newMember, QualifiedName.agrees_symm same.agrees⟩

variable (wellFormed : change.old.WellFormed change.defaultSchema)

include wellFormed

theorem leadingSteps_of_alike : change.leadingSteps = [] := by
  have extensions : change.extensionSteps = [] := by
    rw [extensionSteps, List.map_eq_nil_iff, List.filter_eq_nil_iff]
    intro extension member
    rcases exists_of_forall₂ alike.extensions member with ⟨old, oldMember, matched⟩
    rw [List.any_eq_true.mpr ⟨old, oldMember, matched⟩]
    exact Bool.false_ne_true
  have enums : change.enumSteps = [] := by
    refine List.flatMap_eq_nil_iff.mpr fun enumType member => ?_
    rcases exists_of_forall₂ alike.enums member with ⟨old, oldMember, matched, values⟩
    have found : (change.old.enums.find? fun old => change.same old.name enumType.name) =
        some old := wellFormed.enums.find?_of_same matches_names oldMember matched
    rw [enumPlan, found]
    dsimp only
    rw [if_pos (beq_iff_eq.mpr values), List.map_nil]
  have sequences : change.sequenceSteps = [] :=
    flatMap_steps_eq_nil (standing_ne_added alike.sequences)
  rw [leadingSteps, extensions, enums, sequences]
  rfl

theorem forall_keptTables_iff {Related : Table → Table → Prop} :
    (∀ pair ∈ change.keptTables, Related pair.old pair.new) ↔
      List.Forall₂ Related change.old.tables change.new.tables := by
  have names := alike.tables.imp fun _ _ same => same.agrees
  rw [← Apart.forall_found_iff wellFormed.names matches_names names]
  constructor
  · intro each new member old found
    exact each ⟨old, new⟩ (mem_keptTables.mpr ⟨member, found⟩)
  · intro each pair kept
    rcases mem_keptTables.mp kept with ⟨member, found⟩
    exact each pair.new member pair.old found

theorem steps_eq_nil_iff : change.steps capabilities comments = [] ↔
    List.Forall₂ Table.SpelledAlike change.old.tables change.new.tables := by
  have creations : change.creationSteps capabilities comments = [] := by
    rw [creationSteps, createdTables_of_alike alike]
    rfl
  have drops : change.dropSteps = [] := by
    rw [dropSteps, droppedTables_of_alike alike]
    rfl
  rw [steps_eq, leadingSteps_of_alike alike wellFormed, creations, drops,
    trailingSteps_of_alike alike, List.nil_append, List.nil_append, List.append_nil,
    List.append_nil, List.flatMap_eq_nil_iff, ← forall_keptTables_iff alike wellFormed]
  refine forall_congr' fun pair => forall_congr' fun kept => ?_
  have same := (forall_keptTables_iff alike wellFormed).mpr alike.tables pair kept
  have proper : pair.old.WellFormed :=
    wellFormed.tables pair.old (List.mem_of_find?_eq_some (mem_keptTables.mp kept).2)
  exact TableChange.steps_eq_nil_iff same proper

end

end SchemaChange

/-! ## Plans -/

namespace Target

variable {target : Target} {old new : Schema}

theorem exists_plan_without_statements_iff :
    (∃ plan, target.plan old new = .ok plan ∧ plan.statements = []) ↔
      (target.schemaChange old new).steps target.capabilities target.options.comments = [] := by
  constructor
  · intro holds
    rcases holds with ⟨plan, planned, idle⟩
    refine List.eq_nil_iff_forall_not_mem.mpr fun step member => ?_
    rcases exists_statement_of_plan planned (List.mem_map_of_mem member) with
      ⟨statement, statementMember, _⟩
    rw [idle] at statementMember
    cases statementMember
  · intro idle
    refine ⟨⟨[], (target.schemaChange old new).warnings⟩, plan_eq_ok_iff.mpr ⟨?_, rfl⟩, rfl⟩
    rw [orderedActions, idle]
    rfl

/-- Between a well-formed schema and one that differs from it in nothing but where the default
schema is written out, there is a plan without a statement exactly when the tables spell the targets
of their foreign keys, the owners of their indexes and their parents alike. -/
theorem plan_idle_iff_spelledAlike (wellFormed : old.WellFormed target.capabilities.defaultSchema)
    (same : (old.resolve target.capabilities.defaultSchema ==
      new.resolve target.capabilities.defaultSchema) = true) :
    (∃ plan, target.plan old new = .ok plan ∧ plan.statements = []) ↔
      List.Forall₂ Table.SpelledAlike old.tables new.tables := by
  have alike : (target.schemaChange old new).old.Alike
      (target.schemaChange old new).defaultSchema (target.schemaChange old new).new :=
    Schema.alike_of_resolve same
  rw [exists_plan_without_statements_iff]
  exact SchemaChange.steps_eq_nil_iff alike wellFormed

end Target

/-! ## An example -/

namespace SpellingExample

def identity : Column := { name := "id", dataType := "integer" }

def users : Table := { name := "users", columns := [identity] }

def publicUsers : QualifiedName := ⟨some "public", "users"⟩

def pages (target : QualifiedName) : Table where
  name := "pages"
  columns :=
    [{ identity with name := "author", references := some { table := target, column := "id" } }]
  indexes :=
    [{ name := "by_author", table := .plain "pages", keys := [{ target := .column "author" }] }]

def plainPages : Table := pages (.plain "users")

def titles : View := { name := .plain "titles", query := "SELECT title FROM pages" }

def secured : Policy := { name := "own", table := .plain "pages" }

def old : Schema where
  tables := [users, plainPages]
  enums := [{ name := .plain "state", values := ["draft", "shown"] }]
  policies := [secured]
  views := [titles]

/-- The default schema is written out in the names of objects and of the table of a policy. -/
def written : Schema where
  tables := [{ users with schema := some "public" }, { plainPages with schema := some "public" }]
  enums := [{ name := ⟨some "public", "state"⟩, values := ["draft", "shown"] }]
  policies := [{ secured with table := ⟨some "public", "pages"⟩ }]
  views := [{ titles with name := ⟨some "public", "titles"⟩ }]

def referring : Schema := { old with tables := [users, pages publicUsers] }

theorem old_wellFormed : old.WellFormed "public" where
  names := by decide
  tables := by
    have plain : users.WellFormed := ⟨by decide, by decide, by simp [users, identity]⟩
    have keyed : plainPages.WellFormed :=
      ⟨by decide, by decide, by simp [plainPages, pages, identity]⟩
    exact List.forall_mem_cons.mpr ⟨plain, List.forall_mem_singleton.mpr keyed⟩
  enums := by decide
  sequences := .nil
  functions := .nil
  views := by decide

end SpellingExample

open SpellingExample in
/-- Nothing is to be done when the names of objects get their schema. -/
theorem plan_idle_iff_spelledAlike_pages :
    old.WellFormed "public" ∧ (old.resolve "public" == written.resolve "public") = true ∧
      ∃ plan, Target.plan ⟨Capabilities.postgres, {}⟩ old written = .ok plan ∧
        plan.statements = [] := by
  have same : (old.resolve "public" == written.resolve "public") = true := by decide +kernel
  have spelled : List.Forall₂ Table.SpelledAlike old.tables written.tables :=
    .cons ⟨rfl, fun _ => .rfl, rfl, rfl⟩ (.cons ⟨rfl, fun _ => .rfl, rfl, rfl⟩ .nil)
  exact ⟨old_wellFormed, same,
    (@Target.plan_idle_iff_spelledAlike ⟨Capabilities.postgres, {}⟩ _ _ old_wellFormed same).mpr
      spelled⟩

open SpellingExample in
/-- A foreign key is replaced when the table that it refers to gets its schema. -/
theorem plan_replaces_respelled_key_pages :
    old.WellFormed "public" ∧ (old.resolve "public" == referring.resolve "public") = true ∧
      ∃ plan, Target.plan ⟨Capabilities.postgres, {}⟩ old referring = .ok plan ∧
        plan.statements.map (·.operation) = [.replaceConstraint] ∧ plan.isDestructive = true :=
  ⟨old_wellFormed, by decide +kernel, _, rfl, by decide +kernel, by decide +kernel⟩

end SchemaDdl
