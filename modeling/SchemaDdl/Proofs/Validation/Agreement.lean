import SchemaDdl.Capability.BuiltIn
import SchemaDdl.Proofs.Validation.Errors
import SchemaDdl.Proofs.Writing.Schema

/-!
# Validation and writing

What is valid for a dialect should be possible to write for it. Part by part, the absence of errors
gives what the statement of the part asks for, except for a few things that validation does not look
at. They are collected here, and a valid schema can be written exactly when it has none of them.
-/

namespace SchemaDdl

namespace Target

variable {target : Target} {schema : Schema} {table : Table}

/-! ## Parts of tables -/

theorem numbers_of_errorFree {location : String} {column : Column}
    (free : ErrorFree (target.capabilities.numberingIssues table location column))
    (numbered : column.autoIncrement = true) :
    DeclaredType.isInteger column.canonicalType = true ∧
      (target.family = .sqlite →
        column.primaryKey = true ∧ table.hasTableLevelPrimaryKey = false) := by
  unfold Capabilities.numberingIssues at free
  simp only [numbered, Bool.not_true, Bool.false_eq_true, if_false] at free
  split at free
  · exact absurd rfl (errorFree_singleton.mp free)
  · rename_i integer
    have key := (errorFree_issueWhen rfl).mp free
    refine ⟨by simpa using integer, fun sqlite => ?_⟩
    have family : target.capabilities.family = .sqlite := sqlite
    simpa [family] using key

theorem takesConstraint_of_errorFree {constraint : Constraint}
    (free : ErrorFree (target.capabilities.constraintIssues schema table constraint)) :
    target.TakesConstraint constraint := by
  intro exclusion kind
  simp only [Capabilities.constraintIssues, errorFree_append, kind] at free
  simpa [supports] using (errorFree_issueWhen rfl).mp free.1.1

theorem nonempty_of_errorFree (free : ErrorFree (target.capabilities.structureIssues table)) :
    table.columns ≠ [] := by
  simp only [Capabilities.structureIssues, errorFree_append] at free
  simpa using (errorFree_issueWhen rfl).mp free.1.1

theorem endsTable_of_errorFree
    (plain : target.family = .sqlite →
      target.supports .partitioning = false ∧ target.supports .inheritance = false)
    (free : ErrorFree (target.capabilities.optionIssues table)) : target.EndsTable table := by
  simp only [Capabilities.optionIssues, errorFree_append] at free
  have partitioning : table.partitioning.isSome = true → target.supports .partitioning = true := by
    simpa [supports] using (errorFree_issueWhen rfl).mp free.1.1.1.1.1.1.1
  have inherits : table.inherits ≠ [] → target.supports .inheritance = true := by
    simpa [supports] using (errorFree_issueWhen rfl).mp free.1.1.1.1.1.1.2
  unfold EndsTable
  cases family : target.family with
  | postgres => exact ⟨inherits, partitioning⟩
  | sqlite =>
      rcases plain family with ⟨noPartitioning, noInheritance⟩
      simp only [noPartitioning, noInheritance, Bool.false_eq_true, imp_false, Bool.not_eq_true,
        Option.isSome_eq_false_iff, Option.isNone_iff_eq_none, ne_eq, not_not]
        at partitioning inherits
      exact ⟨partitioning, inherits⟩

theorem takesIndex_of_errorFree {index : Index}
    (free : ErrorFree (target.capabilities.indexIssues table index)) (keys : index.keys ≠ []) :
    target.TakesIndex index := by
  simp only [Capabilities.indexIssues, errorFree_append] at free
  rcases free with ⟨⟨⟨⟨⟨⟨method, predicate⟩, covering⟩, ordering⟩, expressions⟩, _⟩, _⟩
  rw [errorFree_issueWhen rfl] at method predicate covering ordering expressions
  refine ⟨keys, by simpa using method, ?_, ?_, ?_, ?_⟩
  · simpa [supports] using covering
  · simpa [supports] using predicate
  · simpa [supports] using expressions
  · simpa using ordering

/-! ## Other objects -/

theorem takesFunction_of_errorFree {function : StoredFunction}
    (free : ErrorFree (target.capabilities.functionIssues function)) :
    target.TakesFunction function := by
  unfold Capabilities.functionIssues at free
  split at free
  · exact absurd rfl (errorFree_singleton.mp free)
  · rename_i functions
    have language := (errorFree_issueWhen rfl).mp free
    exact ⟨by simpa [supports] using functions, by simpa using language⟩

theorem acts_of_errorFree {trigger : Trigger}
    (free : ErrorFree (target.capabilities.triggerIssues schema trigger)) :
    target.supports .triggers = true ∧ trigger.Acts target.family := by
  unfold Capabilities.triggerIssues at free
  split at free
  · exact absurd rfl (errorFree_singleton.mp free)
  · rename_i triggers
    rw [errorFree_append] at free
    have action := (errorFree_issueWhen rfl).mp free.2
    refine ⟨by simpa [supports] using triggers, ?_⟩
    have family : target.family = target.capabilities.family := rfl
    unfold Trigger.Acts
    unfold Capabilities.lacksAction at action
    rw [family]
    split at action
    · rename_i postgres
      simpa [postgres] using action
    · rename_i sqlite
      simpa [sqlite] using action

theorem rowLevelSecurity_of_errorFree {policy : Policy}
    (free : ErrorFree (target.capabilities.policyIssues schema policy)) :
    target.supports .rowLevelSecurity = true := by
  unfold Capabilities.policyIssues at free
  split at free
  · exact absurd rfl (errorFree_singleton.mp free)
  · rename_i policies
    simpa [supports] using policies

theorem views_of_errorFree {view : View}
    (free : ErrorFree (target.capabilities.viewIssues view)) :
    target.supports (viewFeature view) = true := by
  unfold Capabilities.viewIssues at free
  unfold viewFeature
  split at free
  · simpa [supports, *] using (errorFree_issueWhen rfl).mp free
  · simpa [supports, *] using (errorFree_issueWhen rfl).mp free

end Target

/-! ## Columns and tables -/

/-- What validation does not look at in a column: a size of numbers that the Postgres family does
not number, and a default without a meaning. Row identifiers as defaults are looked at. -/
structure Column.PassesUnchecked (dialect : Dialect) (column : Column) : Prop where
  size : dialect.family = .postgres → column.autoIncrement = true →
    column.canonicalType ≠ "tinyint" ∧ column.canonicalType ≠ "mediumint"
  default : column.DefaultFits dialect ∨ column.default = some (.sentinel .uniqueRowId)

namespace Target

variable {target : Target} {schema : Schema} {table : Table} {column : Column}

theorem numbers_iff_of_errorFree
    (free : ErrorFree (target.capabilities.columnIssues schema table column)) :
    (column.autoIncrement = true → table.Numbers target.family column) ↔
      (target.family = .postgres → column.autoIncrement = true →
        column.canonicalType ≠ "tinyint" ∧ column.canonicalType ≠ "mediumint") := by
  simp only [Capabilities.columnIssues, errorFree_append] at free
  have numbering := numbers_of_errorFree free.1.1.2
  unfold Table.Numbers
  cases family : target.family with
  | postgres =>
      simp only [true_implies]
      refine forall_congr' fun numbered => ?_
      rw [DeclaredType.digits_iff]
      exact and_iff_right (numbering numbered).1
  | sqlite =>
      -- The numbering of SQLite is validated in full.
      refine iff_of_true (fun numbered => ?_) nofun
      rcases numbering numbered with ⟨integer, key⟩
      exact ⟨(key family).1, (key family).2, integer⟩

theorem defaultFits_iff_of_errorFree
    (free : ErrorFree (target.capabilities.columnIssues schema table column)) :
    column.DefaultFits target.dialect ↔
      column.DefaultFits target.dialect ∨ column.default = some (.sentinel .uniqueRowId) := by
  simp only [Capabilities.columnIssues, errorFree_append] at free
  have rowId := (errorFree_issueWhen rfl).mp free.1.2
  refine ⟨.inl, ?_⟩
  intro either
  rcases either with fits | identified
  · exact fits
  · intro _ value found
    cases identified.symm.trans found
    have same :
        (some (Default.sentinel .uniqueRowId) == some (.sentinel .uniqueRowId)) = true := rfl
    have cockroach : target.dialect = .cockroachDb := by
      simpa [identified, same, dialect] using rowId
    exact cockroach

theorem takesColumn_iff_of_errorFree
    (free : ErrorFree (target.capabilities.columnIssues schema table column)) :
    target.TakesColumn table column ↔ column.PassesUnchecked target.dialect := by
  rw [TakesColumn, numbers_iff_of_errorFree free, defaultFits_iff_of_errorFree free]
  exact ⟨fun fits => ⟨fits.1, fits.2⟩, fun unchecked => ⟨unchecked.size, unchecked.default⟩⟩

theorem takesTable_iff_of_errorFree
    (plain : target.family = .sqlite →
      target.supports .partitioning = false ∧ target.supports .inheritance = false)
    (free : ErrorFree (target.capabilities.tableIssues schema table)) :
    target.TakesTable table ↔
      ∀ column ∈ table.columns, column.PassesUnchecked target.dialect := by
  simp only [Capabilities.tableIssues, errorFree_append, errorFree_flatMap] at free
  rcases free with ⟨⟨⟨⟨⟨structural, columns⟩, options⟩, constraints⟩, _⟩, _⟩
  have each : (∀ column ∈ table.columns, target.TakesColumn table column) ↔ _ :=
    forall₂_congr fun column member => takesColumn_iff_of_errorFree (columns column member)
  rw [← each]
  exact ⟨fun takes => takes.columns, fun takes =>
    ⟨nonempty_of_errorFree structural, takes,
      fun constraint member => takesConstraint_of_errorFree (constraints constraint member),
      endsTable_of_errorFree plain options⟩⟩

end Target

/-! ## Whole schemas -/

/-- What validation does not look at: some sizes and defaults of columns, indexes without keys, and
the events of triggers. -/
structure Schema.PassesUnchecked (dialect : Dialect) (schema : Schema) : Prop where
  columns : ∀ table ∈ schema.tables, ∀ column ∈ table.columns, column.PassesUnchecked dialect
  keys : ∀ table ∈ schema.tables, ∀ index ∈ table.indexes, index.keys ≠ []
  events : ∀ trigger ∈ schema.triggers, trigger.Fires dialect.family

namespace Target

variable {target : Target} {schema : Schema}

theorem takesSchema_iff_of_errorFree
    (plain : target.family = .sqlite →
      target.supports .partitioning = false ∧ target.supports .inheritance = false)
    (tablesFree : ∀ table ∈ schema.tables,
      ErrorFree (target.capabilities.tableIssues schema table))
    (objectsFree : ErrorFree (target.capabilities.objectIssues schema)) :
    target.TakesSchema schema ↔ schema.PassesUnchecked target.dialect := by
  have tables : (∀ table ∈ schema.tables, target.TakesTable table) ↔ _ :=
    forall₂_congr fun table member => takesTable_iff_of_errorFree plain (tablesFree table member)
  simp only [Capabilities.objectIssues, errorFree_append, errorFree_flatMap] at objectsFree
  rcases objectsFree with
    ⟨⟨⟨⟨⟨⟨enums, sequences⟩, functions⟩, triggers⟩, policies⟩, views⟩, extensions⟩
  constructor
  · intro takes
    exact ⟨tables.mp takes.tables,
      fun table tableMember index member => (takes.indexes table tableMember index member).keys,
      fun trigger member => (takes.triggers trigger member).2.2⟩
  · intro holds
    rcases holds with ⟨columns, keys, events⟩
    -- Indexes are validated with their tables, but written on their own.
    have indexes : ∀ table ∈ schema.tables, ∀ index ∈ table.indexes, target.TakesIndex index := by
      intro table tableMember index member
      have free := tablesFree table tableMember
      simp only [Capabilities.tableIssues, errorFree_append, errorFree_flatMap] at free
      exact takesIndex_of_errorFree (free.2 index member) (keys table tableMember index member)
    refine ⟨?_, ?_, ?_, tables.mpr columns, indexes, ?_, ?_, ?_, ?_⟩
    · intro extension member
      simpa [supports] using (errorFree_issueWhen rfl).mp (extensions extension member)
    · intro enumType member
      simpa [supports] using (errorFree_issueWhen rfl).mp (enums enumType member)
    · intro sequence member
      simpa [supports] using (errorFree_issueWhen rfl).mp (sequences sequence member)
    · exact fun view member => views_of_errorFree (views view member)
    · exact fun function member => takesFunction_of_errorFree (functions function member)
    · intro trigger member
      rcases acts_of_errorFree (triggers trigger member) with ⟨supported, acts⟩
      exact ⟨supported, acts, events trigger member⟩
    · exact fun policy member => rowLevelSecurity_of_errorFree (policies policy member)

end Target

section

variable {dialect : Dialect} {options : Options} {policy : TenancyPolicy} {schema : Schema}
  {report : Report}

theorem supports_tableEnds_builtIn (sqlite : (Capabilities.builtIn dialect).family = .sqlite) :
    (Capabilities.builtIn dialect).supports .partitioning = false ∧
      (Capabilities.builtIn dialect).supports .inheritance = false := by
  cases dialect <;> first | exact ⟨rfl, rfl⟩ | cases sqlite

/-- A schema that is valid for a dialect can be written for it exactly when nothing is wrong with it
that validation does not look at. -/
theorem writable_iff_of_isValid
    (validated : (Capabilities.builtIn dialect).validate policy schema = .ok report)
    (valid : report.isValid = true) :
    Succeeds (Target.createSchema ⟨.builtIn dialect, options⟩ schema) ↔
      schema.PassesUnchecked dialect := by
  rcases Capabilities.errorFree_of_isValid validated valid with ⟨tables, objects, _⟩
  have takes : Target.TakesSchema ⟨.builtIn dialect, options⟩ schema ↔
      schema.PassesUnchecked (Capabilities.builtIn dialect).dialect :=
    Target.takesSchema_iff_of_errorFree supports_tableEnds_builtIn tables objects
  rw [Target.succeeds_createSchema, takes, Capabilities.dialect_builtIn]

end

namespace WritableExample

def numbered (dataType : String) : Column :=
  { name := "id", dataType, nullable := false, autoIncrement := true }

def pages (dataType : String) : Schema :=
  { tables := [{ name := "pages", columns := [numbered dataType] }] }

end WritableExample

open WritableExample in
/-- Pages that are numbered by whole numbers are valid, and can be written. -/
theorem writable_iff_of_isValid_pages :
    ∃ report, (Capabilities.builtIn .postgres).validate {} (pages "bigint") = .ok report ∧
      report.isValid = true ∧
        Succeeds (Target.createSchema ⟨.builtIn .postgres, {}⟩ (pages "bigint")) := by
  have judged : ∃ report,
      (Capabilities.builtIn .postgres).validate {} (pages "bigint") = .ok report ∧
        report.isValid = true := by
    decide +kernel
  rcases judged with ⟨report, validated, valid⟩
  have passes : (pages "bigint").PassesUnchecked .postgres := by
    refine ⟨?_, ?_, nofun⟩
    · intro table tableMember column member
      cases List.mem_singleton.mp tableMember
      cases List.mem_singleton.mp member
      exact ⟨by decide +kernel, .inl nofun⟩
    · intro table tableMember index member
      cases List.mem_singleton.mp tableMember
      cases member
  exact ⟨report, validated, valid, (writable_iff_of_isValid validated valid).mpr passes⟩

open WritableExample in
/-- Numbers of one byte are valid for PostgreSQL as a type it does not know, and it has no way of
numbering them. -/
theorem valid_not_writable_pages :
    ∃ report, (Capabilities.builtIn .postgres).validate {} (pages "tinyint") = .ok report ∧
      report.isValid = true ∧
        ¬Succeeds (Target.createSchema ⟨.builtIn .postgres, {}⟩ (pages "tinyint")) := by
  refine exists_ok_and_of (by decide +kernel) fun written => ?_
  rcases written with ⟨statements, made⟩
  cases made

end SchemaDdl
