import SchemaDdl.Proofs.Sql.Calls
import SchemaDdl.Proofs.Validation.Sequences
import SchemaDdl.Proofs.Writing.Default

/-!
# Defaults that call sequences

A default draws numbers when the expression that is written for it calls `nextval`. Validation looks
for that call in the default as the schema has it: in an expression, where `nextval` and the
parenthesis are next to each other. A call with blanks between them is written all the same, and so
is a string that is taken for an expression, and neither is refused in a table of tenants.
-/

namespace SchemaDdl

/-- Whether a column has a default that may be written as a call of `nextval` and is not taken for
one: an expression in which no parenthesis follows at once, a string that is written as an
expression, or something behind a cast to a type with a call in it. -/
def Column.HidesNumbers (column : Column) : Prop :=
  column.autoIncrement = false ∧ DeclaredType.isSerial column.canonicalType = false ∧
    ((∃ expression, column.default = some (.raw expression) ∧
        ¬"nextval(".toList <:+: Text.lower expression.toList) ∨
      (∃ string, column.default = some (.literal (.string string)) ∧
        Sql.isExpression string = true) ∨
      Sql.Calls "nextval" column.declaredType.toList ∧
        ∀ expression, column.default ≠ some (.raw expression))

/-- Whether an error says of a place that it draws numbers in a table of tenants. -/
def Report.RefusesNumbersAt (report : Report) (place : String) : Prop :=
  ∃ issue ∈ report.issues, issue.headline = ⟨place, .nileTenantSequence, .error⟩

/-- Whether a place is that of a column other than a given one which draws numbers in a table of
tenants, or that of a sequence which serves such a table. -/
def Schema.DrawsBeside (schema : Schema) (rule : TenancyRule) (defaultSchema : String)
    (given : Table × Column) (place : String) : Prop :=
  (∃ table ∈ schema.tables, ∃ column ∈ table.columns, (table, column) ≠ given ∧
      schema.tenancyOf? rule defaultSchema table.qualifiedName = some .tenantScoped ∧
        column.DrawsNumbers ∧ s!"{table.qualifiedName.text}.{column.name}" = place) ∨
    ∃ sequence ∈ schema.sequences,
      sequence.owner?.bind (schema.tenancyOf? rule defaultSchema) = some .tenantScoped ∧
        sequence.name.text = place

/-! ## Columns -/

theorem Column.drawsNumbers_iff {capabilities : Capabilities} {table : QualifiedName}
    {column : Column} {text : String} (postgres : capabilities.family = .postgres)
    (written : Sql.defaultClause? capabilities table column = .ok (some text))
    (calls : Sql.Calls "nextval" text.toList) : column.DrawsNumbers ↔ ¬column.HidesNumbers := by
  rcases Sql.exists_of_defaultClause? written with ⟨value, default, _, done⟩
  constructor
  · rintro draws ⟨manual, plain, hidden⟩
    have drawn : ∃ expression, column.default = some (.raw expression) ∧
        "nextval(".toList <:+: Text.lower expression.toList := by
      simpa [DrawsNumbers, manual, plain] using draws
    rcases drawn with ⟨expression, raw, call⟩
    rcases hidden with ⟨_, same, apart⟩ | ⟨_, same, _⟩ | ⟨_, other⟩
    · cases raw.symm.trans same
      exact apart call
    · cases raw.symm.trans same
    · exact other expression raw
  · intro seen
    by_contra silent
    simp only [DrawsNumbers, not_or, not_exists, not_and, Bool.not_eq_true] at silent
    refine seen ⟨silent.1, silent.2.1, ?_⟩
    rcases Sql.calls_writtenDefault postgres done calls with
      ⟨expression, rfl⟩ | ⟨string, rfl, isExpression⟩ | typed
    · exact .inl ⟨expression, default, silent.2.2 expression default⟩
    · exact .inr (.inl ⟨string, default, isExpression⟩)
    · by_cases raw : ∃ expression, column.default = some (.raw expression)
      · rcases raw with ⟨expression, same⟩
        exact .inl ⟨expression, same, silent.2.2 expression same⟩
      · exact .inr (.inr ⟨typed, not_exists.mp raw⟩)

/-! ## Reports -/

theorem Tenancy.sequenceHeadline_eq_iff {tenancy : Tenancy} {location place : String} :
    tenancy.sequenceHeadline location = ⟨place, .nileTenantSequence, .error⟩ ↔
      tenancy = .tenantScoped ∧ location = place := by
  cases tenancy <;> simp [sequenceHeadline]

theorem Table.columnHeadline?_eq_iff {table : Table} {tenancy : Option Tenancy} {column : Column}
    {place : String} :
    table.columnHeadline? tenancy column = some ⟨place, .nileTenantSequence, .error⟩ ↔
      tenancy = some .tenantScoped ∧ column.DrawsNumbers ∧
        s!"{table.qualifiedName.text}.{column.name}" = place := by
  unfold columnHeadline?
  by_cases draws : column.DrawsNumbers
  · cases tenancy <;> simp [draws, Tenancy.sequenceHeadline_eq_iff]
  · simp [draws]

theorem Schema.headline_nileSequenceIssue_eq_iff {schema : Schema} {rule : TenancyRule}
    {defaultSchema : String} {sequence : Sequence} {place : String} :
    (schema.nileSequenceIssue rule defaultSchema sequence).headline =
        ⟨place, .nileTenantSequence, .error⟩ ↔
      sequence.owner?.bind (schema.tenancyOf? rule defaultSchema) = some .tenantScoped ∧
        sequence.name.text = place := by
  unfold nileSequenceIssue
  dsimp only
  split <;> simp_all [Issue.headline, Issue.code, Issue.severity, Finding.code, Finding.severity]

theorem Report.refusesNumbersAt_iff_mem {report : Report} {place : String} :
    report.RefusesNumbersAt place ↔
      ⟨place, .nileTenantSequence, .error⟩ ∈ sequenceHeadlines report.issues := by
  unfold RefusesNumbersAt sequenceHeadlines
  simp only [List.mem_map, List.mem_filter, and_assoc]
  refine exists_congr fun issue => and_congr_right fun _ => ?_
  refine (and_iff_right_of_imp fun same => ?_).symm
  have code : issue.code = .nileTenantSequence := congrArg Headline.code same
  rw [code]
  rfl

/-- Errors of this kind are those of the columns in tables of tenants that draw numbers, and of the
sequences that serve such tables. -/
theorem Capabilities.refusesNumbersAt_iff_exists {capabilities : Capabilities} {schema : Schema}
    {rule : TenancyRule} {report : Report} {place : String} (nile : capabilities.dialect = .nile)
    (validated : capabilities.validateUnder rule schema = .ok report) :
    report.RefusesNumbersAt place ↔
      (∃ table ∈ schema.tables, ∃ column ∈ table.columns,
          schema.tenancyOf? rule capabilities.defaultSchema table.qualifiedName =
              some .tenantScoped ∧
            column.DrawsNumbers ∧ s!"{table.qualifiedName.text}.{column.name}" = place) ∨
        ∃ sequence ∈ schema.sequences,
          sequence.owner?.bind (schema.tenancyOf? rule capabilities.defaultSchema) =
              some .tenantScoped ∧ sequence.name.text = place := by
  rw [Report.refusesNumbersAt_iff_mem, (validateUnder_eq_ok_iff.mp validated).2,
    sequenceHeadlines_issues nile]
  simp only [List.mem_append, List.mem_flatMap, List.mem_filterMap, List.mem_map,
    Table.columnHeadline?_eq_iff, Schema.headline_nileSequenceIssue_eq_iff]

/-- On Nile, a column whose default is written with a call of `nextval` is refused in a table of
tenants exactly if it does not hide the call, unless something else of the same path is refused. -/
theorem Capabilities.refusesNumbersAt_iff {capabilities : Capabilities} {schema : Schema}
    {rule : TenancyRule} {report : Report} {table : Table} {column : Column} {text : String}
    (nile : capabilities.dialect = .nile)
    (validated : capabilities.validateUnder rule schema = .ok report)
    (member : table ∈ schema.tables) (among : column ∈ table.columns)
    (written : Sql.defaultClause? capabilities table.qualifiedName column = .ok (some text))
    (calls : Sql.Calls "nextval" text.toList) :
    report.RefusesNumbersAt s!"{table.qualifiedName.text}.{column.name}" ↔
      (schema.tenancyOf? rule capabilities.defaultSchema table.qualifiedName = some .tenantScoped ∧
          ¬column.HidesNumbers) ∨
        schema.DrawsBeside rule capabilities.defaultSchema (table, column)
          s!"{table.qualifiedName.text}.{column.name}" := by
  have postgres : capabilities.family = .postgres := by
    rw [family, nile]
    rfl
  rw [refusesNumbersAt_iff_exists nile validated, ← Column.drawsNumbers_iff postgres written calls]
  constructor
  · rintro (⟨other, otherMember, twin, twinAmong, tenant, draws, same⟩ | sequence)
    · by_cases itself : (other, twin) = (table, column)
      · cases itself
        exact .inl ⟨tenant, draws⟩
      · exact .inr (.inl ⟨other, otherMember, twin, twinAmong, itself, tenant, draws, same⟩)
    · exact .inr (.inr sequence)
  · rintro (⟨tenant, draws⟩ | ⟨other, otherMember, twin, twinAmong, _, beside⟩ | sequence)
    · exact .inl ⟨table, member, column, among, tenant, draws, rfl⟩
    · exact .inl ⟨other, otherMember, twin, twinAmong, beside⟩
    · exact .inr sequence

/-! ## An example -/

namespace NumberExample

def number (default : Default) : Column :=
  { name := "number", dataType := "integer", default }

def notes (default : Default) : Table where
  name := "notes"
  columns := [{ name := "tenant_id", dataType := "uuid" }, number default]
  constraints := [{ kind := .primaryKey ["tenant_id", "number"] }]

def schema (default : Default) : Schema where
  tables := [notes default]

def rule : TenancyRule :=
  TenancyPolicy.rule {}

def report (default : Default) : Report :=
  ⟨.nile, Capabilities.nile.issues rule (schema default)⟩

def call : String :=
  "nextval('numbers')"

def parted : String :=
  "NEXTVAL ('numbers')"

theorem calls_call : Sql.Calls "nextval" call.toList := by
  refine ⟨"nextval(".toList.map .plain ++ [.quoted .literal "'numbers'".toList, .plain ')'],
    by decide +kernel, ⟨⟨[], "nextval".toList, [], "')".toList, by decide, by decide, rfl, nofun⟩⟩⟩

theorem calls_parted : Sql.Calls "nextval" parted.toList := by
  refine ⟨"NEXTVAL (".toList.map .plain ++ [.quoted .literal "'numbers'".toList, .plain ')'],
    by decide +kernel,
    ⟨⟨[], "NEXTVAL".toList, [' '], "')".toList, by decide, by decide, rfl, nofun⟩⟩⟩

end NumberExample

open NumberExample in
/-- An expression with the call is refused. -/
theorem refusesNumbersAt_iff_call :
    Capabilities.nile.dialect = .nile ∧
      Capabilities.nile.validateUnder rule (schema (.raw call)) = .ok (report (.raw call)) ∧
      notes (.raw call) ∈ (schema (.raw call)).tables ∧
      number (.raw call) ∈ (notes (.raw call)).columns ∧
      Sql.defaultClause? .nile (.plain "notes") (number (.raw call)) = .ok (some call) ∧
      Sql.Calls "nextval" call.toList ∧
      (report (.raw call)).RefusesNumbersAt "notes.number" := by
  have validated : Capabilities.nile.validateUnder rule (schema (.raw call)) =
      .ok (report (.raw call)) := rfl
  have member : notes (.raw call) ∈ (schema (.raw call)).tables := List.mem_singleton.mpr rfl
  have among : number (.raw call) ∈ (notes (.raw call)).columns :=
    List.mem_cons_of_mem _ (List.mem_singleton.mpr rfl)
  have written : Sql.defaultClause? .nile (.plain "notes") (number (.raw call)) =
      .ok (some call) := rfl
  refine ⟨rfl, validated, member, among, written, calls_call, ?_⟩
  have shown : ¬(number (.raw call)).HidesNumbers :=
    (Column.drawsNumbers_iff rfl written calls_call).mp (by decide +kernel)
  exact (Capabilities.refusesNumbersAt_iff rfl validated member among written calls_call).mpr
    (.inl ⟨by decide +kernel, shown⟩)

open NumberExample in
/-- The same call with a blank in it, or in a string, is written as well, and the report on it is
empty. -/
theorem not_refusesNumbersAt_call :
    Sql.defaultClause? .nile (.plain "notes") (number (.raw parted)) = .ok (some parted) ∧
      Sql.Calls "nextval" parted.toList ∧ (report (.raw parted)).issues = [] ∧
      Sql.defaultClause? .nile (.plain "notes") (number (.literal (.string call))) =
        .ok (some call) ∧
      Sql.Calls "nextval" call.toList ∧ (report (.literal (.string call))).issues = [] ∧
      ¬∀ (rule : TenancyRule) (schema : Schema) (report : Report) (table : Table) (column : Column)
          (text : String),
        Capabilities.nile.validateUnder rule schema = .ok report → table ∈ schema.tables →
          schema.tenancyOf? rule Capabilities.nile.defaultSchema table.qualifiedName =
            some .tenantScoped →
          column ∈ table.columns →
          Sql.defaultClause? .nile table.qualifiedName column = .ok (some text) →
          Sql.Calls "nextval" text.toList →
          report.RefusesNumbersAt s!"{table.qualifiedName.text}.{column.name}" := by
  have silent : (report (.literal (.string call))).issues = [] := by decide +kernel
  refine ⟨rfl, calls_parted, by decide +kernel, rfl, calls_call, silent, fun refuses => ?_⟩
  have refused := refuses rule (schema (.literal (.string call)))
    (report (.literal (.string call))) _ _ call rfl (List.mem_singleton.mpr rfl) (by decide +kernel)
    (List.mem_cons_of_mem _ (List.mem_singleton.mpr rfl)) rfl calls_call
  rcases refused with ⟨issue, member, _⟩
  rw [silent] at member
  cases member

end SchemaDdl
