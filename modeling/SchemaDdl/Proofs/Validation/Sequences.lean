import SchemaDdl.Proofs.Text.Splitting
import SchemaDdl.Proofs.Validation.Reordering

/-!
# Sequences on Nile

A sequence counts for all tenants at once. Nile refuses one that serves a table of tenants, and
remarks on one that serves a shared table. Each column that takes its values from a sequence and
each sequence of its own is looked at once, and nothing else is reported in their place.
-/

namespace SchemaDdl

/-- What a reader sees first of an issue: where it is, its code, and how grave it is. -/
structure Headline where
  location : String
  code : FindingCode
  severity : Severity
deriving DecidableEq, Repr

def Issue.headline (issue : Issue) : Headline :=
  ⟨issue.location, issue.code, issue.severity⟩

def FindingCode.isOfSequence (code : FindingCode) : Bool :=
  code = .nileTenantSequence || code = .nileSharedSequence

/-- The headlines of the issues about sequences, in their order. -/
def sequenceHeadlines (issues : List Issue) : List Headline :=
  (issues.filter (·.code.isOfSequence)).map Issue.headline

/-! ## What is to be reported -/

/-- Whether a column takes its values from a sequence: it is numbered, its type is a serial one, or
its default is an expression with `nextval(` in it, in whatever letters. -/
def Column.DrawsNumbers (column : Column) : Prop :=
  column.autoIncrement = true ∨ DeclaredType.isSerial column.canonicalType = true ∨
    ∃ expression, column.default = some (.raw expression) ∧
      "nextval(".toList <:+: Text.lower expression.toList

theorem Column.isSequenceBacked_iff {column : Column} :
    column.isSequenceBacked = true ↔ column.DrawsNumbers := by
  unfold isSequenceBacked DrawsNumbers Text.contains Text.lowered
  rw [Bool.or_eq_true, Bool.or_eq_true, or_assoc]
  refine or_congr_right (or_congr_right ?_)
  cases column.default with
  | none => simp
  | some value =>
      cases value with
      | raw expression => simp [Text.occursIn_iff]
      | literal | sentinel => simp

instance (column : Column) : Decidable column.DrawsNumbers :=
  decidable_of_iff _ Column.isSequenceBacked_iff

/-- A sequence that serves tables of tenants is an error, and one that serves shared tables is worth
a remark. -/
def Tenancy.sequenceHeadline (location : String) : Tenancy → Headline
  | .tenantScoped => ⟨location, .nileTenantSequence, .error⟩
  | .shared => ⟨location, .nileSharedSequence, .info⟩

/-- What is to be reported of a column, when its table is of some class. -/
def Table.columnHeadline? (table : Table) (tenancy : Option Tenancy) (column : Column) :
    Option Headline :=
  if column.DrawsNumbers then
    tenancy.map (Tenancy.sequenceHeadline s!"{table.qualifiedName.text}.{column.name}")
  else
    none

namespace Schema

/-- Whether a sequence is owned by a table of tenants. An owner without a schema is in the schema of
the sequence, or else in the default one. -/
def IsTenantOwned (schema : Schema) (rule : TenancyRule) (defaultSchema : String)
    (sequence : Sequence) : Prop :=
  ∃ owner ∈ sequence.owningTable?, ∃ table ∈ schema.tables,
    rule.classify table = some .tenantScoped ∧ table.name = (QualifiedName.ofText owner).name ∧
      table.schema.getD defaultSchema =
        ((QualifiedName.ofText owner).schema.or sequence.name.schema).getD defaultSchema

instance (schema : Schema) (rule : TenancyRule) (defaultSchema : String) (sequence : Sequence) :
    Decidable (schema.IsTenantOwned rule defaultSchema sequence) :=
  inferInstanceAs (Decidable (∃ owner ∈ sequence.owningTable?, _))

/-- What is to be reported of a sequence. -/
def sequenceHeadline (schema : Schema) (rule : TenancyRule) (defaultSchema : String)
    (sequence : Sequence) : Headline :=
  let tenancy : Tenancy :=
    if schema.IsTenantOwned rule defaultSchema sequence then .tenantScoped else .shared
  tenancy.sequenceHeadline sequence.name.text

end Schema

/-! ## What is reported -/

section

variable {first second : List Issue}

theorem isOfSequence_code_iff {finding : Finding} :
    finding.code.isOfSequence = true ↔ finding.subject = .sequence := by
  cases finding with
  | unsupportedType kind =>
      cases kind <;> simp [Finding.code, TypeKind.code, FindingCode.isOfSequence]
  | _ => simp [Finding.code, FindingCode.isOfSequence]

theorem sequenceHeadlines_eq_nil {subjects : List Subject} (concern : Concern subjects first)
    (other : .sequence ∉ subjects) : sequenceHeadlines first = [] := by
  refine List.map_eq_nil_iff.mpr (List.filter_eq_nil_iff.mpr fun issue member held => other ?_)
  rw [← isOfSequence_code_iff.mp held]
  exact concern issue member

theorem sequenceHeadlines_append :
    sequenceHeadlines (first ++ second) = sequenceHeadlines first ++ sequenceHeadlines second := by
  simp [sequenceHeadlines]

theorem sequenceHeadlines_flatMap {α : Type} (items : List α) (issues : α → List Issue) :
    sequenceHeadlines (items.flatMap issues) =
      items.flatMap fun item => sequenceHeadlines (issues item) := by
  simp [sequenceHeadlines, List.filter_flatMap, List.map_flatMap]

theorem sequenceHeadlines_map {α : Type} (items : List α) (issueOf : α → Issue)
    (about : ∀ item, (issueOf item).finding.subject = .sequence) :
    sequenceHeadlines (items.map issueOf) = items.map fun item => (issueOf item).headline := by
  have all : ∀ issue ∈ items.map issueOf, issue.code.isOfSequence = true :=
    List.forall_mem_map.mpr fun item _ => isOfSequence_code_iff.mpr (about item)
  rw [sequenceHeadlines, List.filter_eq_self.mpr all, List.map_map]
  rfl

end

namespace Schema

variable {schema : Schema} {rule : TenancyRule} {defaultSchema : String} {table : Table}
  {sequence : Sequence}

theorem sequenceHeadlines_sequenceIssues (tenancy : Tenancy) {finding : Finding}
    (about : finding.subject = .sequence)
    (headline : ∀ location,
      Issue.headline ⟨location, finding⟩ = tenancy.sequenceHeadline location) :
    sequenceHeadlines (table.sequenceIssues finding) =
      table.columns.filterMap (table.columnHeadline? (some tenancy)) := by
  rw [Table.sequenceIssues, sequenceHeadlines_map _ _ fun _ => about]
  induction table.columns with
  | nil => rfl
  | cons column columns induction =>
      rw [List.filterMap_cons, ← induction, List.filter_cons]
      by_cases draws : column.DrawsNumbers
      · rw [if_pos (Column.isSequenceBacked_iff.mpr draws), Table.columnHeadline?, if_pos draws]
        exact congrArg (· :: _) (headline _)
      · rw [if_neg fun backed => draws (Column.isSequenceBacked_iff.mp backed),
          Table.columnHeadline?, if_neg draws]

theorem sequenceHeadlines_nileTableIssues :
    sequenceHeadlines (schema.nileTableIssues rule defaultSchema table) =
      table.columns.filterMap
        (table.columnHeadline? (schema.tenancyOf? rule defaultSchema table.qualifiedName)) := by
  unfold nileTableIssues
  cases schema.tenancyOf? rule defaultSchema table.qualifiedName with
  | none =>
      have silent : table.columnHeadline? none = fun _ => none := by
        funext column
        exact ite_self _
      rw [silent, List.filterMap_none]
      rfl
  | some tenancy =>
      cases tenancy with
      | tenantScoped =>
          show sequenceHeadlines (table.tenantIssues rule.tenantColumn) = _
          rw [Table.tenantIssues, sequenceHeadlines_append,
            sequenceHeadlines_sequenceIssues .tenantScoped rfl fun _ => rfl,
            sequenceHeadlines_eq_nil (?_ : Concern [.tenancy] _) (by decide), List.nil_append]
          cases table.column? rule.tenantColumn <;> simp
      | shared =>
          show sequenceHeadlines (schema.sharedTableIssues rule defaultSchema table) = _
          rw [sharedTableIssues, sequenceHeadlines_append,
            sequenceHeadlines_sequenceIssues .shared rfl fun _ => rfl,
            sequenceHeadlines_eq_nil (?_ : Concern [.tenancy] _) (by decide), List.append_nil]
          simp

theorem tenancyOf?_eq_some_iff (alike : schema.ClassedAlike rule defaultSchema)
    {name : QualifiedName} {tenancy : Tenancy} :
    schema.tenancyOf? rule defaultSchema name = some tenancy ↔
      ∃ table ∈ schema.tables, table.qualifiedName.agrees defaultSchema name = true ∧
        rule.classify table = some tenancy := by
  constructor
  · intro found
    rcases Option.bind_eq_some_iff.mp found with ⟨table, last, classified⟩
    have agrees := List.find?_some last
    exact ⟨table, List.mem_reverse.mp (List.mem_of_find?_eq_some last), agrees, classified⟩
  · rintro ⟨table, member, agrees, classified⟩
    rw [tenancyOf?_eq_classify alike member agrees, classified]

theorem isTenantOwned_iff (alike : schema.ClassedAlike rule defaultSchema) :
    schema.IsTenantOwned rule defaultSchema sequence ↔
      sequence.owner?.bind (schema.tenancyOf? rule defaultSchema) = some .tenantScoped := by
  simp only [IsTenantOwned, Sequence.owner?, Option.bind_map, Option.bind_eq_some_iff,
    Option.mem_def, Function.comp_apply, tenancyOf?_eq_some_iff alike, QualifiedName.agrees,
    Table.qualifiedName, Bool.and_eq_true, beq_iff_eq]
  simp only [and_assoc, and_comm]

theorem headline_nileSequenceIssue (alike : schema.ClassedAlike rule defaultSchema) :
    (schema.nileSequenceIssue rule defaultSchema sequence).headline =
      schema.sequenceHeadline rule defaultSchema sequence := by
  unfold nileSequenceIssue sequenceHeadline
  simp only [isTenantOwned_iff alike, beq_iff_eq]
  split <;> rfl

end Schema

theorem Capabilities.sequenceHeadlines_issues {capabilities : Capabilities} {schema : Schema}
    {rule : TenancyRule} (nile : capabilities.dialect = .nile) :
    sequenceHeadlines (capabilities.issues rule schema) =
      schema.tables.flatMap (fun table => table.columns.filterMap (table.columnHeadline?
          (schema.tenancyOf? rule capabilities.defaultSchema table.qualifiedName)))
        ++ schema.sequences.map fun sequence =>
          (schema.nileSequenceIssue rule capabilities.defaultSchema sequence).headline := by
  have tables : Concern [.column, .table, .constraint, .target, .index]
      (schema.tables.flatMap (capabilities.tableIssues schema)) :=
    concern_flatMap.mpr fun _ _ => concern_tableIssues
  rw [issues, sequenceHeadlines_append, sequenceHeadlines_append,
    sequenceHeadlines_eq_nil tables (by decide),
    sequenceHeadlines_eq_nil concern_objectIssues (by decide), platformIssues, nile]
  rw [List.nil_append, List.nil_append, Schema.nileIssues, sequenceHeadlines_append,
    sequenceHeadlines_flatMap, sequenceHeadlines_map _ _ Schema.subject_nileSequenceIssue]
  simp only [Schema.sequenceHeadlines_nileTableIssues]

theorem Schema.classedAlike_of_namesApart {schema : Schema} {rule : TenancyRule}
    {defaultSchema : String} (apart : schema.NamesApart defaultSchema) :
    schema.ClassedAlike rule defaultSchema := by
  intro left leftMember right rightMember agrees
  have found := tableMatching?_of_namesApart apart leftMember agrees
  rw [tableMatching?_of_namesApart apart rightMember (QualifiedName.agrees_self _)] at found
  rw [Option.some.inj found]

/-- On Nile, each column that draws numbers is reported once, as an error in a table of tenants, as
a remark in a shared table and not at all in a table of neither kind, and each sequence is reported
once, as an error exactly if a table of tenants owns it. No other column is reported so. -/
theorem Capabilities.validateUnder_sequenceHeadlines {capabilities : Capabilities} {schema : Schema}
    {rule : TenancyRule} (nile : capabilities.dialect = .nile)
    (accepted : schema.rejectMalformed = .ok ())
    (apart : schema.NamesApart capabilities.defaultSchema) :
    ∃ report, capabilities.validateUnder rule schema = .ok report ∧
      sequenceHeadlines report.issues =
        schema.tables.flatMap (fun table =>
            table.columns.filterMap (table.columnHeadline? (rule.classify table)))
          ++ schema.sequences.map (schema.sequenceHeadline rule capabilities.defaultSchema) := by
  have alike : schema.ClassedAlike rule capabilities.defaultSchema :=
    Schema.classedAlike_of_namesApart apart
  refine ⟨_, validateUnder_eq_ok_iff.mpr ⟨accepted, rfl⟩, ?_⟩
  rw [sequenceHeadlines_issues nile]
  refine congrArg₂ (· ++ ·) (List.flatMap_congr fun table member => ?_)
    (List.map_congr_left fun sequence _ => Schema.headline_nileSequenceIssue alike)
  rw [Schema.tenancyOf?_eq_classify alike member (QualifiedName.agrees_self _)]

/-! ## An example -/

namespace SequenceExample

def notes : Table where
  name := "notes"
  columns :=
    [{ name := "tenant_id", dataType := "uuid" }, { name := "id", dataType := "bigserial" }]

def plans : Table where
  name := "plans"
  schema := some "crm"
  columns := [{ name := "id", dataType := "integer", autoIncrement := true }]
  platform := { tenant := some .shared }

/-- Records of nobody in particular, with numbers from a sequence. -/
def records : Table where
  name := "records"
  columns :=
    [{ name := "id", dataType := "integer", default := some (.raw "NEXTVAL('record_numbers')") }]

/-- The numbers of the notes, and numbers of another schema, which has no notes. -/
def schema : Schema where
  tables := [notes, plans, records]
  sequences :=
    [⟨.plain "note_numbers", some "notes.id", none, none⟩,
      ⟨⟨some "crm", "note_numbers"⟩, some "notes.id", none, none⟩]

def headlines : List Headline :=
  [⟨"notes.id", .nileTenantSequence, .error⟩, ⟨"crm.plans.id", .nileSharedSequence, .info⟩,
    ⟨"note_numbers", .nileTenantSequence, .error⟩,
    ⟨"crm.note_numbers", .nileSharedSequence, .info⟩]

end SequenceExample

open SequenceExample in
/-- Nile refuses the numbers of the notes, and remarks on the others, but not on those of the
records. -/
theorem validateUnder_sequenceHeadlines_notes :
    Capabilities.nile.dialect = .nile ∧ schema.rejectMalformed = .ok () ∧
      schema.NamesApart Capabilities.nile.defaultSchema ∧
      ∃ report, Capabilities.nile.validateUnder (TenancyPolicy.rule {}) schema = .ok report ∧
        sequenceHeadlines report.issues = headlines := by
  have accepted : schema.rejectMalformed = .ok () := rfl
  have apart : schema.NamesApart Capabilities.nile.defaultSchema := by decide
  rcases Capabilities.validateUnder_sequenceHeadlines rfl accepted apart with
    ⟨report, validated, reported⟩
  exact ⟨rfl, accepted, apart, report, validated, reported.trans (by decide +kernel)⟩

end SchemaDdl
