import SchemaDdl.Capability.BuiltIn
import SchemaDdl.Proofs.Plan.Dependency
import SchemaDdl.Proofs.Plan.Matching
import SchemaDdl.Proofs.Validation.Errors
import SchemaDdl.Proofs.Validation.Subjects

/-!
# Targets of foreign keys

Validation and planning each have their own way to the table that a foreign key refers to. A plan
reads a missing schema as the default one. Validation takes a name as it is written, and one without
a schema for the only table of that name, in whatever schema it is. So a target may be known to
validation and be none for a plan.
-/

namespace SchemaDdl

/-! ## Two ways to a table -/

namespace Schema

/-- The table that a name without a schema means in whatever schema it is. -/
def namesake? (schema : Schema) (name : QualifiedName) : Option Table :=
  if name.schema.isNone then schema.tables.find? (·.name == name.name) else none

/-- Whether a name leaves no doubt about the table it means: written with the default schema, it has
no table without a schema beside it, and written without a schema, it is that of such a table or of
one table at most. -/
def Settles (schema : Schema) (defaultSchema : String) (name : QualifiedName) : Prop :=
  match name.schema with
  | some held => held = defaultSchema →
      ∀ table ∈ schema.tables, table.name = name.name → table.schema.isSome = true
  | none => (∃ table ∈ schema.tables, table.qualifiedName = name) ∨
      (schema.tables.filter (·.name == name.name)).length ≤ 1

variable {schema : Schema} {defaultSchema : String} {name : QualifiedName}

theorem table?_of_qualified {held : String} (qualified : name.schema = some held)
    (settles : schema.Settles defaultSchema name) :
    schema.table? name = schema.tableMatching? defaultSchema name := by
  unfold Settles at settles
  rw [qualified] at settles
  unfold table? tableMatching?
  rw [qualified, ← List.head?_filter, ← List.head?_filter]
  refine congrArg List.head? (List.filter_congr fun table member => Bool.eq_iff_iff.mpr ?_)
  rw [beq_iff_eq, QualifiedName.agrees_iff]
  constructor
  · intro equal
    rw [equal]
  · intro same
    rcases QualifiedName.mk.inj same with ⟨schemas, names⟩
    cases written : table.schema with
    | none =>
        -- The name is written with the default schema, and the table without one.
        have default : held = defaultSchema := by
          simpa [Table.qualifiedName, qualified, written] using schemas.symm
        have isSome := settles default table member names
        rw [written] at isSome
        cases isSome
    | some other =>
        have equal : other = held := by
          simpa [Table.qualifiedName, qualified, written] using schemas
        cases name
        cases qualified
        rw [Table.qualifiedName, written, equal]
        exact congrArg _ names

/-- Whether no two tables have the same name as it is written. -/
def TablesDistinct (schema : Schema) : Prop :=
  (schema.tables.map (·.qualifiedName)).Nodup

instance (schema : Schema) : Decidable schema.TablesDistinct :=
  inferInstanceAs (Decidable (List.Nodup _))

theorem tablesDistinct_of_namesApart (apart : schema.NamesApart defaultSchema) :
    schema.TablesDistinct := by
  refine List.pairwise_map.mpr (List.Pairwise.imp (fun {left right} different equal => ?_) apart)
  rw [equal, QualifiedName.agrees_self] at different
  cases different

theorem table?_of_distinct (distinct : schema.TablesDistinct) {table : Table}
    (member : table ∈ schema.tables) (named : table.qualifiedName = name) :
    schema.table? name = some table := by
  have only : ∀ other ∈ schema.tables, other.qualifiedName = name → other = table :=
    fun other otherMember same =>
      List.inj_on_of_nodup_map distinct otherMember member (same.trans named.symm)
  unfold table?
  cases written : name.schema with
  | some held =>
    cases found : schema.tables.find? (·.qualifiedName == name) with
    | none => exact absurd (beq_iff_eq.mpr named) (List.find?_eq_none.mp found table member)
    | some other =>
      have same := List.find?_some found
      exact congrArg some (only other (List.mem_of_find?_eq_some found) (beq_iff_eq.mp same))
  | none =>
    subst named
    have candidate : table ∈ schema.tables.filter (·.name == table.name) :=
      List.mem_filter.mpr ⟨member, beq_self_eq_true _⟩
    have first : (schema.tables.filter (·.name == table.name)).find? (·.schema.isNone) =
        some table := by
      cases found : (schema.tables.filter (·.name == table.name)).find? (·.schema.isNone) with
      | none =>
        exact absurd (Option.isNone_iff_eq_none.mpr written)
          (List.find?_eq_none.mp found table candidate)
      | some other =>
        have plain := List.find?_some found
        rcases List.mem_filter.mp (List.mem_of_find?_eq_some found) with ⟨otherMember, names⟩
        refine congrArg some (only other otherMember ?_)
        rw [Table.qualifiedName, Option.isNone_iff_eq_none.mp plain, beq_iff_eq.mp names, ← written]
        rfl
    exact congrArg (Option.or · _) first

theorem table?_of_unqualified (apart : schema.NamesApart defaultSchema) (plain : name.schema = none)
    (settles : schema.Settles defaultSchema name) :
    schema.table? name = (schema.tableMatching? defaultSchema name).or (schema.namesake? name) := by
  unfold Settles at settles
  rw [plain] at settles
  rcases settles with ⟨table, member, named⟩ | alone
  · have found : schema.tableMatching? defaultSchema name = some table :=
      tableMatching?_of_namesApart apart member (named ▸ QualifiedName.agrees_self _)
    rw [found, table?_of_distinct (tablesDistinct_of_namesApart apart) member named]
    rfl
  · have candidate : ∀ table, schema.tableMatching? defaultSchema name = some table →
        table ∈ schema.tables.filter (·.name == name.name) := by
      intro table found
      have agrees := List.find?_some found
      simp only [QualifiedName.agrees, Bool.and_eq_true] at agrees
      exact List.mem_filter.mpr ⟨List.mem_of_find?_eq_some found, agrees.1⟩
    have namesake : schema.namesake? name =
        (schema.tables.filter (·.name == name.name)).head? := by
      rw [namesake?, plain, List.head?_filter]
      rfl
    rw [namesake]
    unfold table?
    rw [plain]
    generalize schema.tables.filter (·.name == name.name) = candidates at alone candidate
    rcases candidates with _ | ⟨only, _ | ⟨other, rest⟩⟩
    · cases found : schema.tableMatching? defaultSchema name with
      | none => rfl
      | some table => cases candidate table found
    · have either : (schema.tableMatching? defaultSchema name).or (some only) = some only := by
        cases found : schema.tableMatching? defaultSchema name with
        | none => rfl
        | some table => rw [List.mem_singleton.mp (candidate table found), Option.some_or]
      rw [List.head?_cons, either]
      cases written : only.schema <;> simp [written]
    · simp at alone

/-- Where a name leaves no doubt, validation finds the table that a plan finds, and for a name
without a schema that a plan has no table for, the one of that name. -/
theorem table?_eq (apart : schema.NamesApart defaultSchema)
    (settles : schema.Settles defaultSchema name) :
    schema.table? name = (schema.tableMatching? defaultSchema name).or (schema.namesake? name) := by
  cases written : name.schema with
  | some held => simp [table?_of_qualified written settles, namesake?, written]
  | none => exact table?_of_unqualified apart written settles

theorem waitsFor_iff_tableMatching? (apart : schema.NamesApart defaultSchema) {place other : Nat} :
    WaitsFor defaultSchema schema.tables place other ↔
      ∃ table, schema.tables[place]? = some table ∧ other ≠ place ∧
        ∃ name ∈ table.foreignKeyTargets, ∃ target,
          schema.tableMatching? defaultSchema name = some target ∧
            schema.tables[other]? = some target := by
  constructor
  · intro waits
    rcases waitsFor_iff.mp waits with ⟨table, found, different, name, member, located⟩
    rcases List.findIdx?_eq_some_iff_getElem.mp located with ⟨bound, same, _⟩
    exact ⟨table, found, different, name, member, schema.tables[other],
      tableMatching?_of_namesApart apart (List.getElem_mem bound) same,
      List.getElem?_eq_getElem bound⟩
  · intro holds
    rcases holds with ⟨table, found, different, name, member, target, meant, otherFound⟩
    have agrees := List.find?_some meant
    exact waitsFor_of_refersTo apart found otherFound different ⟨name, member, agrees⟩

end Schema

/-! ## What is reported -/

/-- The targets of the foreign keys of a table, those of columns first, each with the columns it is
referred to by. -/
def Table.foreignKeyColumns (table : Table) : List (QualifiedName × List String) :=
  table.columns.filterMap (fun column =>
      column.references.map fun reference => (reference.table, [reference.column]))
    ++ table.constraints.filterMap fun constraint =>
      constraint.foreignKey?.map fun key => (key.table, key.referencedColumns)

theorem Table.map_fst_foreignKeyColumns (table : Table) :
    table.foreignKeyColumns.map Prod.fst = table.foreignKeyTargets := by
  simp only [foreignKeyColumns, foreignKeyTargets, List.map_append, List.map_filterMap,
    Option.map_map, Function.comp_def]

def Reports (finding : Finding) (issues : List Issue) : Prop :=
  ∃ issue ∈ issues, issue.finding = finding

/-- Whether some issue says of a name that it means no table. -/
def ReportsUnknown (name : QualifiedName) (issues : List Issue) : Prop :=
  ∃ issue ∈ issues, issue.finding = .unknownTarget name

@[simp] def Finding.isAboutTarget : Finding → Bool
  | .unknownTarget _ | .unknownTargetColumn .. => true
  | _ => false

theorem Finding.isAboutTarget_iff {finding : Finding} :
    finding.isAboutTarget = true ↔ finding.subject = .target := by
  cases finding <;> simp

def TargetsKnown (issues : List Issue) : Prop :=
  ∀ issue ∈ issues, issue.finding.isAboutTarget = false

section

variable {first second : List Issue} {finding : Finding}

theorem Concern.targetsKnown {subjects : List Subject} (concern : Concern subjects first)
    (other : .target ∉ subjects) : TargetsKnown first := by
  intro issue member
  refine Bool.eq_false_iff.mpr fun about => other ?_
  rw [← Finding.isAboutTarget_iff.mp about]
  exact concern issue member

theorem TargetsKnown.not_reports (known : TargetsKnown first)
    (about : finding.isAboutTarget = true) : ¬Reports finding first := by
  intro reports
  rcases reports with ⟨issue, member, rfl⟩
  cases (known issue member).symm.trans about

theorem reports_append :
    Reports finding (first ++ second) ↔ Reports finding first ∨ Reports finding second := by
  simp only [Reports, List.mem_append, or_and_right, exists_or]

theorem reports_flatMap {α : Type} {items : List α} {issues : α → List Issue} :
    Reports finding (items.flatMap issues) ↔ ∃ item ∈ items, Reports finding (issues item) := by
  constructor
  · intro reports
    rcases reports with ⟨issue, member, found⟩
    rcases List.mem_flatMap.mp member with ⟨item, itemMember, member⟩
    exact ⟨item, itemMember, issue, member, found⟩
  · intro reports
    rcases reports with ⟨item, itemMember, issue, member, found⟩
    exact ⟨issue, List.mem_flatMap.mpr ⟨item, itemMember, member⟩, found⟩

@[simp] theorem not_reports_nil : ¬Reports finding [] :=
  fun reports => match reports with
    | ⟨_, member, _⟩ => List.not_mem_nil member

end

namespace Capabilities

variable {capabilities : Capabilities} {schema : Schema} {rule : TenancyRule}
  {policy : TenancyPolicy} {report : Report} {location : String} {table : Table}
  {name : QualifiedName}

def targetFindings (capabilities : Capabilities) (schema : Schema) (target : QualifiedName)
    (columns : List String) : List Finding :=
  match schema.table? target with
  | some table => (columns.filter (!table.hasColumn ·)).map (.unknownTargetColumn target)
  | none => if (capabilities.reservation? target).isNone then [.unknownTarget target] else []

theorem targetIssues_eq (location : String) (target : QualifiedName) (columns : List String) :
    capabilities.targetIssues schema location target columns =
      (capabilities.targetFindings schema target columns).map (Issue.mk location) := by
  unfold targetIssues targetFindings
  cases schema.table? target with
  | some table => exact List.map_map.symm
  | none =>
    dsimp only
    unfold issueWhen
    split <;> rfl

theorem reports_targetIssues {finding : Finding} {target : QualifiedName} {columns : List String} :
    Reports finding (capabilities.targetIssues schema location target columns) ↔
      finding ∈ capabilities.targetFindings schema target columns := by
  simp [targetIssues_eq, Reports]

theorem reports_tableIssues {finding : Finding} (about : finding.isAboutTarget = true) :
    Reports finding (capabilities.tableIssues schema table) ↔
      ∃ key ∈ table.foreignKeyColumns,
        finding ∈ capabilities.targetFindings schema key.1 key.2 := by
  have columns : Concern [.table, .column]
      (table.columns.flatMap (capabilities.columnIssues schema table)) :=
    concern_flatMap.mpr fun _ _ => concern_columnIssues.mono (by decide)
  have before : Concern [.table, .column] (capabilities.structureIssues table
      ++ table.columns.flatMap (capabilities.columnIssues schema table)
      ++ capabilities.optionIssues table) :=
    concern_append.mpr ⟨concern_append.mpr ⟨concern_structureIssues.mono (by decide), columns⟩,
      concern_optionIssues.mono (by decide)⟩
  have after : Concern [.index] (table.indexes.flatMap (capabilities.indexIssues table)) :=
    concern_flatMap.mpr fun _ _ => concern_indexIssues
  have inner : ∀ (condition : Bool) (location : String) (columns : List String),
      Concern [.constraint] (issueWhen condition location .exclusionConstraint
        ++ columns.map fun column => ⟨location, .constraintUnknownColumn column⟩) := by
    simp
  have constraints : ∀ constraint,
      Reports finding (capabilities.constraintIssues schema table constraint) ↔
        ∃ key, constraint.foreignKey? = some key ∧
          finding ∈ capabilities.targetFindings schema key.table key.referencedColumns := by
    intro constraint
    unfold constraintIssues
    rw [reports_append, or_iff_right (((inner _ _ _).targetsKnown (by decide)).not_reports about)]
    cases constraint.foreignKey? with
    | none => simp
    | some key => simp [reports_targetIssues]
  have references : ∀ column,
      Reports finding (capabilities.referenceIssues schema table column) ↔
        ∃ reference, column.references = some reference ∧
          finding ∈ capabilities.targetFindings schema reference.table [reference.column] := by
    intro column
    unfold referenceIssues
    cases column.references with
    | none => simp
    | some reference => simp [reports_targetIssues]
  rw [tableIssues, reports_append, reports_append, reports_append,
    or_iff_right ((before.targetsKnown (by decide)).not_reports about),
    or_iff_left ((after.targetsKnown (by decide)).not_reports about), reports_flatMap,
    reports_flatMap, or_comm]
  simp only [constraints, references, Table.foreignKeyColumns, List.mem_append, List.mem_filterMap,
    Option.map_eq_some_iff, or_and_right, exists_or]
  refine or_congr ⟨?_, ?_⟩ ⟨?_, ?_⟩
  · rintro ⟨column, member, reference, carried, found⟩
    exact ⟨_, ⟨column, member, reference, carried, rfl⟩, found⟩
  · rintro ⟨_, ⟨column, member, reference, carried, rfl⟩, found⟩
    exact ⟨column, member, reference, carried, found⟩
  · rintro ⟨constraint, member, key, carried, found⟩
    exact ⟨_, ⟨constraint, member, key, carried, rfl⟩, found⟩
  · rintro ⟨_, ⟨constraint, member, key, carried, rfl⟩, found⟩
    exact ⟨constraint, member, key, carried, found⟩

theorem reports_issues {finding : Finding} (about : finding.isAboutTarget = true) :
    Reports finding (capabilities.issues rule schema) ↔
      ∃ table ∈ schema.tables, ∃ key ∈ table.foreignKeyColumns,
        finding ∈ capabilities.targetFindings schema key.1 key.2 := by
  rw [issues, reports_append, reports_append,
    or_iff_left ((concern_platformIssues.targetsKnown (by decide)).not_reports about),
    or_iff_left ((concern_objectIssues.targetsKnown (by decide)).not_reports about),
    reports_flatMap]
  simp only [reports_tableIssues about]

theorem unknownTarget_mem_targetFindings {target : QualifiedName} {columns : List String} :
    .unknownTarget name ∈ capabilities.targetFindings schema target columns ↔
      target = name ∧ schema.table? name = none ∧ capabilities.reservation? name = none := by
  unfold targetFindings
  cases found : schema.table? target with
  | some table =>
    refine iff_of_false (by simp) fun holds => ?_
    rcases holds with ⟨rfl, missing, _⟩
    cases found.symm.trans missing
  | none =>
    dsimp only
    constructor
    · intro member
      split at member
      · cases List.mem_singleton.mp member
        exact ⟨rfl, found, Option.isNone_iff_eq_none.mp ‹_›⟩
      · cases member
    · rintro ⟨rfl, _, free⟩
      rw [if_pos (Option.isNone_iff_eq_none.mpr free)]
      exact List.mem_singleton.mpr rfl

theorem reportsUnknown_issues :
    ReportsUnknown name (capabilities.issues rule schema) ↔
      (∃ table ∈ schema.tables, name ∈ table.foreignKeyTargets) ∧ schema.table? name = none ∧
        capabilities.reservation? name = none := by
  refine (reports_issues rfl).trans ?_
  simp only [unknownTarget_mem_targetFindings, ← Table.map_fst_foreignKeyColumns, List.mem_map,
    ← and_assoc, exists_and_right]

/-- Validation and plans have the same table for every target of a foreign key that leaves no doubt,
save for a name without a schema that only a table in another schema has. Validation takes it for
that table, and reports it no more than a target that a plan has a table for. -/
theorem validate_resolves_targets (apart : schema.NamesApart capabilities.defaultSchema)
    (validated : capabilities.validate policy schema = .ok report) :
    (∀ place other, WaitsFor capabilities.defaultSchema schema.tables place other ↔
      ∃ table, schema.tables[place]? = some table ∧ other ≠ place ∧
        ∃ name ∈ table.foreignKeyTargets, ∃ target,
          schema.tableMatching? capabilities.defaultSchema name = some target ∧
            schema.tables[other]? = some target) ∧
      ∀ table ∈ schema.tables, ∀ name ∈ table.foreignKeyTargets,
        schema.Settles capabilities.defaultSchema name →
          schema.table? name = (schema.tableMatching? capabilities.defaultSchema name).or
              (schema.namesake? name) ∧
            (ReportsUnknown name report.issues ↔
              schema.tableMatching? capabilities.defaultSchema name = none ∧
                schema.namesake? name = none ∧ capabilities.reservation? name = none) := by
  refine ⟨fun place other => Schema.waitsFor_iff_tableMatching? apart, ?_⟩
  intro table member name target settles
  have found := Schema.table?_eq apart settles
  refine ⟨found, ?_⟩
  rw [issues_of_validate validated, reportsUnknown_issues, found, Option.or_eq_none_iff, and_assoc]
  exact and_iff_right ⟨table, member, target⟩

end Capabilities

/-! ## An example -/

namespace TargetExample

def identity : Column := { name := "id", dataType := "integer" }

def users : Table := { name := "users", columns := [identity] }

def archived : Table := { name := "users", schema := some "archive", columns := [identity] }

def pages (target : QualifiedName) : Table where
  name := "pages"
  columns :=
    [{ identity with name := "author", references := some { table := target, column := "id" } }]

def visited : Schema := { tables := [users, archived, pages (.plain "visitors")] }

def elsewhere : Schema := { tables := [archived, pages (.plain "users")] }

end TargetExample

open TargetExample in
/-- Neither validation nor a plan has a table for the visitors, and they are reported. -/
theorem validate_resolves_targets_pages :
    visited.NamesApart "public" ∧ visited.Settles "public" (.plain "visitors") ∧
      ∃ report, Capabilities.postgres.validate {} visited = .ok report ∧
        ReportsUnknown (.plain "visitors") report.issues := by
  have apart : visited.NamesApart Capabilities.postgres.defaultSchema := by decide
  have settles : visited.Settles "public" (.plain "visitors") := .inr (by decide)
  have judged : ∃ report, Capabilities.postgres.validate {} visited = .ok report := by
    decide +kernel
  rcases judged with ⟨report, validated⟩
  have member : pages (.plain "visitors") ∈ visited.tables :=
    List.mem_cons_of_mem _ (List.mem_cons_of_mem _ List.mem_cons_self)
  rcases (Capabilities.validate_resolves_targets apart validated).2 _ member (.plain "visitors")
    List.mem_cons_self settles with ⟨_, reported⟩
  exact ⟨apart, settles, report, validated, reported.mpr ⟨rfl, rfl, by decide⟩⟩

open TargetExample in
/-- Validation takes a name without a schema for a table of another schema, which a plan does not,
and reports nothing. -/
theorem validate_accepts_other_schema_pages :
    elsewhere.NamesApart "public" ∧ elsewhere.table? (.plain "users") = some archived ∧
      elsewhere.tableMatching? "public" (.plain "users") = none ∧
      Capabilities.postgres.reservation? (.plain "users") = none ∧
      ∃ report, Capabilities.postgres.validate {} elsewhere = .ok report ∧
        ¬ReportsUnknown (.plain "users") report.issues := by
  have judged : ∃ report, Capabilities.postgres.validate {} elsewhere = .ok report := by
    decide +kernel
  rcases judged with ⟨report, validated⟩
  refine ⟨by decide, rfl, rfl, by decide, report, validated, fun reports => ?_⟩
  rw [Capabilities.issues_of_validate validated, Capabilities.reportsUnknown_issues] at reports
  cases reports.2.1

end SchemaDdl
