import SchemaDdl.Proofs.Validation.Agreement
import SchemaDdl.Proofs.Validation.Subjects

/-!
# Refused objects

Indexes, and the objects beside tables, are refused as a whole when a dialect lacks what they ask
for. Validation says so in errors with codes of their own, all of them at once, where writing stops
at the first one. The two agree on every object: it is refused exactly when such an error is
reported for it, but for an index without keys, which validation lets pass. Triggers are left out
here, since they are refused for what they do as well.
-/

namespace SchemaDdl

/-! ## Objects -/

/-- An object that has a statement of its own and needs nothing but what the dialect can express. An
index comes with the table that it is declared in. -/
inductive SchemaObject where
  | index (table : Table) (index : Index)
  | enumType (enumType : EnumType)
  | sequence (sequence : Sequence)
  | function (function : StoredFunction)
  | policy (policy : Policy)
  | view (view : View)
  | extension (extension : Extension)

namespace SchemaObject

/-- The action that creates an object. -/
def creation : SchemaObject → Action
  | .index _ object => .createIndex object
  | .enumType object => .createEnum object
  | .sequence object => .createSequence object
  | .function object => .createFunction object
  | .policy object => .createPolicy object
  | .view object => .createView object
  | .extension object => .createExtension object

/-- The codes of the errors that refuse an object. -/
def refusalCodes : SchemaObject → List FindingCode
  | .index .. => [.indexMethod, .partialIndex, .coveringIndex, .indexOrdering, .expressionIndex]
  | .enumType _ => [.enumType]
  | .sequence _ => [.sequences]
  | .function _ => [.functions, .functionLanguage]
  | .policy _ => [.policies]
  | .view _ => [.view, .materializedView]
  | .extension _ => [.extension]

def LacksKeys : SchemaObject → Prop
  | .index _ object => object.keys = []
  | _ => False

end SchemaObject

/-- The objects beside the tables and their indexes that may be refused, in the order in which they
are judged. -/
def Schema.plainObjects (schema : Schema) : List SchemaObject :=
  schema.enums.map .enumType ++ schema.sequences.map .sequence ++ schema.functions.map .function
    ++ schema.policies.map .policy ++ schema.views.map .view ++ schema.extensions.map .extension

def Schema.writtenObjects (schema : Schema) : List SchemaObject :=
  (schema.tables.flatMap fun table => table.indexes.map (.index table)) ++ schema.plainObjects

/-! ## Refusals -/

/-- Whether a code tells that an object is refused. -/
def FindingCode.isRefusal (code : FindingCode) : Bool :=
  [indexMethod, partialIndex, coveringIndex, indexOrdering, expressionIndex, enumType, sequences,
    functions, functionLanguage, policies, view, materializedView, extension].contains code

/-- Whether an issue refuses an object. A column whose type is an enumeration is refused by the code
of enumeration types too. -/
def Issue.isRefusal (issue : Issue) : Bool :=
  issue.code.isRefusal && issue.finding.subject != .column

namespace Capabilities

variable {capabilities : Capabilities} {schema : Schema} {rule : TenancyRule} {table : Table}
  {issues : List Issue} {issue : Issue}

def issuesOf (capabilities : Capabilities) (schema : Schema) : SchemaObject → List Issue
  | .index table index => capabilities.indexIssues table index
  | .enumType enumType => capabilities.enumIssues enumType
  | .sequence sequence => capabilities.sequenceIssues sequence
  | .function function => capabilities.functionIssues function
  | .policy policy => capabilities.policyIssues schema policy
  | .view view => capabilities.viewIssues view
  | .extension extension => capabilities.extensionIssues extension

/-- The errors by which validation refuses an object. -/
def refusals (capabilities : Capabilities) (schema : Schema) (object : SchemaObject) : List Issue :=
  (capabilities.issuesOf schema object).filter (·.isRefusal)

theorem subject_of_isRefusal (refuses : issue.isRefusal = true) :
    issue.finding.subject = .index ∨ issue.finding.subject = .object := by
  rcases issue with ⟨location, finding⟩
  cases finding with
  | unsupportedType kind => cases kind <;> cases refuses
  | _ => first | exact .inl rfl | exact .inr rfl | cases refuses

theorem filter_isRefusal_eq_nil {subjects : List Subject} (concern : Concern subjects issues)
    (other : Subject.index ∉ subjects ∧ Subject.object ∉ subjects) :
    issues.filter (·.isRefusal) = [] := by
  refine List.filter_eq_nil_iff.mpr fun issue member refuses => ?_
  have subject := concern issue member
  rcases subject_of_isRefusal refuses with index | object
  · exact other.1 (index ▸ subject)
  · exact other.2 (object ▸ subject)

theorem filter_isRefusal_tableIssues :
    (capabilities.tableIssues schema table).filter (·.isRefusal) =
      table.indexes.flatMap fun index => capabilities.refusals schema (.index table index) := by
  have silent {α : Type} {items : List α} {subjects : List Subject} {issuesOf : α → List Issue}
      (concern : ∀ item, Concern subjects (issuesOf item))
      (other : Subject.index ∉ subjects ∧ Subject.object ∉ subjects) :
      (items.flatMap issuesOf).filter (·.isRefusal) = [] :=
    filter_isRefusal_eq_nil (concern_flatMap.mpr fun item _ => concern item) other
  simp only [tableIssues, List.filter_append,
    filter_isRefusal_eq_nil concern_structureIssues (by decide),
    filter_isRefusal_eq_nil concern_optionIssues (by decide),
    silent (fun _ => concern_columnIssues) (by decide),
    silent (fun _ => concern_constraintIssues) (by decide),
    silent (fun _ => concern_referenceIssues) (by decide), List.nil_append, List.filter_flatMap]
  rfl

theorem mem_issueWhen {condition : Bool} {location : String} {finding : Finding} :
    issue ∈ issueWhen condition location finding ↔
      condition = true ∧ issue = ⟨location, finding⟩ := by
  cases condition <;> simp [issueWhen]

theorem filter_isRefusal_issueWhen_of_code {condition : Bool} {location : String}
    {finding : Finding} (passes : finding.code.isRefusal = false) :
    (issueWhen condition location finding).filter (·.isRefusal) = [] := by
  cases condition <;> simp [issueWhen, Issue.isRefusal, Issue.code, passes]

theorem filter_isRefusal_issueWhen {condition : Bool} {location : String} {finding : Finding}
    (refuses : (Issue.mk location finding).isRefusal = true) :
    (issueWhen condition location finding).filter (·.isRefusal) = [] ↔ condition = false := by
  cases condition <;> simp [issueWhen, refuses]

theorem filter_isRefusal_triggerIssues {trigger : Trigger} :
    (capabilities.triggerIssues schema trigger).filter (·.isRefusal) = [] := by
  unfold triggerIssues
  split
  · rfl
  · rw [List.filter_append, filter_isRefusal_issueWhen_of_code rfl,
      filter_isRefusal_issueWhen_of_code rfl, List.append_nil]

theorem filter_isRefusal_objectIssues :
    (capabilities.objectIssues schema).filter (·.isRefusal) =
      schema.plainObjects.flatMap (capabilities.refusals schema) := by
  have silent : (schema.triggers.flatMap fun trigger =>
      (capabilities.triggerIssues schema trigger).filter (·.isRefusal)) = [] :=
    List.flatMap_eq_nil_iff.mpr fun _ _ => filter_isRefusal_triggerIssues
  simp only [objectIssues, Schema.plainObjects, List.filter_append, List.filter_flatMap, silent,
    List.append_nil, List.flatMap_append, List.flatMap_map]
  rfl

theorem filter_isRefusal_issues :
    (capabilities.issues rule schema).filter (·.isRefusal) =
      schema.writtenObjects.flatMap (capabilities.refusals schema) := by
  have platform : (capabilities.platformIssues rule schema).filter (·.isRefusal) = [] :=
    filter_isRefusal_eq_nil concern_platformIssues (by decide)
  have tables : (schema.tables.flatMap (capabilities.tableIssues schema)).filter (·.isRefusal) =
      (schema.tables.flatMap fun table => table.indexes.map (.index table)).flatMap
        (capabilities.refusals schema) := by
    simp only [List.filter_flatMap, filter_isRefusal_tableIssues, List.flatMap_assoc,
      List.flatMap_map]
  rw [issues, List.filter_append, List.filter_append, platform, List.append_nil, tables,
    filter_isRefusal_objectIssues, Schema.writtenObjects, List.flatMap_append]

end Capabilities

/-! ## What writing says -/

namespace Target

variable {target : Target} {schema : Schema} {table : Table} {object : SchemaObject}

theorem takesIndex_iff_refusals {index : Index} :
    target.TakesIndex index ↔
      index.keys ≠ [] ∧ target.capabilities.refusals schema (.index table index) = [] := by
  have columns (location : String) (names : List String) (name : String) :
      (names.map fun column => Issue.mk location (.indexUnknownColumn column name)).filter
        (·.isRefusal) = [] :=
    List.filter_eq_nil_iff.mpr (List.forall_mem_map.mpr fun _ _ => nofun)
  have storage (condition : Bool) (location : String) :
      (issueWhen condition location .indexStorage).filter (·.isRefusal) = [] :=
    Capabilities.filter_isRefusal_issueWhen_of_code rfl
  simp only [Capabilities.refusals, Capabilities.issuesOf, Capabilities.indexIssues,
    List.filter_append, List.append_eq_nil_iff, columns, storage]
  rw [Capabilities.filter_isRefusal_issueWhen rfl, Capabilities.filter_isRefusal_issueWhen rfl,
    Capabilities.filter_isRefusal_issueWhen rfl, Capabilities.filter_isRefusal_issueWhen rfl,
    Capabilities.filter_isRefusal_issueWhen rfl]
  constructor
  · rintro ⟨keys, method, covering, predicate, expressions, ordering⟩
    refine ⟨keys, ⟨⟨⟨⟨⟨by simpa using method, ?_⟩, ?_⟩, ?_⟩, ?_⟩, trivial⟩, trivial⟩
    · simpa [supports] using predicate
    · simpa [supports] using covering
    · simpa using ordering
    · simpa [supports] using expressions
  · rintro ⟨keys, ⟨⟨⟨⟨⟨method, predicate⟩, covering⟩, ordering⟩, expressions⟩, _⟩, _⟩
    refine ⟨keys, by simpa using method, ?_, ?_, ?_, ?_⟩
    · simpa [supports] using covering
    · simpa [supports] using predicate
    · simpa [supports] using expressions
    · simpa using ordering

theorem supports_iff_refusal {feature : Feature} {location : String} {finding : Finding}
    (refuses : (Issue.mk location finding).isRefusal = true) :
    target.supports feature = true ↔ ¬False ∧
      (issueWhen (!target.capabilities.supports feature) location finding).filter
        (·.isRefusal) = [] := by
  rw [Capabilities.filter_isRefusal_issueWhen refuses, Bool.not_eq_false', supports]
  exact (and_iff_right id).symm

theorem takesFunction_iff_refusals {function : StoredFunction} :
    target.TakesFunction function ↔
      target.capabilities.refusals schema (.function function) = [] := by
  simp only [TakesFunction, supports, Capabilities.refusals, Capabilities.issuesOf,
    Capabilities.functionIssues]
  split
  · rename_i missing
    exact iff_of_false (fun takes => absurd takes.1 (by simpa using missing))
      (List.cons_ne_nil _ _)
  · rename_i present
    rw [Capabilities.filter_isRefusal_issueWhen rfl, Bool.not_eq_false']
    exact and_iff_right (by simpa using present)

theorem rowLevelSecurity_iff_refusals {policy : Policy} :
    target.supports .rowLevelSecurity = true ↔
      target.capabilities.refusals schema (.policy policy) = [] := by
  simp only [supports, Capabilities.refusals, Capabilities.issuesOf, Capabilities.policyIssues]
  split
  · rename_i missing
    exact iff_of_false (by simpa using missing) (List.cons_ne_nil _ _)
  · rename_i present
    exact iff_of_true (by simpa using present)
      (Capabilities.filter_isRefusal_issueWhen_of_code rfl)

theorem views_iff_refusals {view : View} :
    target.supports (viewFeature view) = true ↔
      ¬False ∧ target.capabilities.refusals schema (.view view) = [] := by
  simp only [viewFeature, Capabilities.refusals, Capabilities.issuesOf, Capabilities.viewIssues]
  split
  · exact supports_iff_refusal rfl
  · exact supports_iff_refusal rfl

theorem succeeds_creation_iff :
    Succeeds (target.statement object.creation) ↔
      ¬object.LacksKeys ∧ target.capabilities.refusals schema object = [] := by
  rw [succeeds_statement]
  cases object with
  | index table index => exact succeeds_createIndex.trans takesIndex_iff_refusals
  | enumType enumType => exact succeeds_createEnum.trans (supports_iff_refusal rfl)
  | sequence sequence => exact succeeds_createSequence.trans (supports_iff_refusal rfl)
  | function function =>
      exact succeeds_createFunction.trans (takesFunction_iff_refusals.trans (and_iff_right id).symm)
  | policy policy =>
      exact succeeds_createPolicy.trans
        (rowLevelSecurity_iff_refusals.trans (and_iff_right id).symm)
  | view view => exact succeeds_createView.trans views_iff_refusals
  | extension extension => exact succeeds_createExtension.trans (supports_iff_refusal rfl)

theorem of_mem_refusals {issue : Issue}
    (member : issue ∈ target.capabilities.refusals schema object) :
    object.creation.affected.head? = some issue.location ∧ issue.severity = .error ∧
      issue.code ∈ object.refusalCodes := by
  rcases List.mem_filter.mp member with ⟨found, refuses⟩
  have coded {codes : List FindingCode} {code : FindingCode} (listed : codes.contains code = true) :
      code ∈ codes := List.contains_iff_mem.mp listed
  cases object with
  | index table index =>
      simp only [Capabilities.issuesOf, Capabilities.indexIssues, List.mem_append,
        Capabilities.mem_issueWhen, List.mem_map, or_assoc] at found
      rcases found with
        ⟨_, rfl⟩ | ⟨_, rfl⟩ | ⟨_, rfl⟩ | ⟨_, rfl⟩ | ⟨_, rfl⟩ | ⟨_, _, rfl⟩ | ⟨_, rfl⟩
      -- Unknown columns and storage are reported of an index too, and do not refuse it.
      all_goals first | exact ⟨rfl, rfl, coded rfl⟩ | cases refuses
  | enumType enumType =>
      rcases Capabilities.mem_issueWhen.mp found with ⟨_, rfl⟩
      exact ⟨rfl, rfl, coded rfl⟩
  | sequence sequence =>
      rcases Capabilities.mem_issueWhen.mp found with ⟨_, rfl⟩
      exact ⟨rfl, rfl, coded rfl⟩
  | function function =>
      simp only [Capabilities.issuesOf, Capabilities.functionIssues] at found
      split at found
      · cases List.mem_singleton.mp found
        exact ⟨rfl, rfl, coded rfl⟩
      · rcases Capabilities.mem_issueWhen.mp found with ⟨_, rfl⟩
        exact ⟨rfl, rfl, coded rfl⟩
  | policy policy =>
      simp only [Capabilities.issuesOf, Capabilities.policyIssues] at found
      split at found
      · cases List.mem_singleton.mp found
        exact ⟨rfl, rfl, coded rfl⟩
      · rcases Capabilities.mem_issueWhen.mp found with ⟨_, rfl⟩
        cases refuses
  | view view =>
      simp only [Capabilities.issuesOf, Capabilities.viewIssues] at found
      split at found
      · rcases Capabilities.mem_issueWhen.mp found with ⟨_, rfl⟩
        exact ⟨rfl, rfl, coded rfl⟩
      · rcases Capabilities.mem_issueWhen.mp found with ⟨_, rfl⟩
        exact ⟨rfl, rfl, coded rfl⟩
  | extension extension =>
      rcases Capabilities.mem_issueWhen.mp found with ⟨_, rfl⟩
      exact ⟨rfl, rfl, coded rfl⟩

/-- Validation and writing refuse the same objects. The errors of a report that refuse objects are
those of the objects, one after another, and an object cannot be written exactly when it has some of
them or is an index without keys. -/
theorem refuses_iff_reported {rule : TenancyRule} {report : Report}
    (validated : target.capabilities.validateUnder rule schema = .ok report) :
    report.issues.filter (·.isRefusal) =
        schema.writtenObjects.flatMap (target.capabilities.refusals schema) ∧
      ∀ object : SchemaObject,
        (¬Succeeds (target.statement object.creation) ↔
          object.LacksKeys ∨ target.capabilities.refusals schema object ≠ []) ∧
        ∀ issue ∈ target.capabilities.refusals schema object,
          object.creation.affected.head? = some issue.location ∧ issue.severity = .error ∧
            issue.code ∈ object.refusalCodes := by
  refine ⟨?_, fun object => ⟨?_, fun issue => of_mem_refusals⟩⟩
  · rw [(Capabilities.validateUnder_eq_ok_iff.mp validated).2]
    exact Capabilities.filter_isRefusal_issues
  · have taken : Succeeds (target.statement object.creation) ↔
        ¬object.LacksKeys ∧ target.capabilities.refusals schema object = [] := succeeds_creation_iff
    rw [taken, not_and_or, not_not]

end Target

namespace RefusalExample

def byTitle : Index :=
  { name := "by_title", table := ⟨none, "pages"⟩, keys := [{ target := .column "title" }] }

def latest : Index :=
  { name := "latest"
    table := ⟨none, "pages"⟩
    keys := [{ target := .column "title", nulls := some .last }]
    method := .gin
    predicate := some "title <> ''" }

def pages : Table where
  name := "pages"
  columns := [{ name := "title", dataType := "text" }]
  indexes := [byTitle, latest]

def touch : StoredFunction :=
  { name := ⟨none, "touch"⟩, returns := "trigger", language := "plv8", body := .raw "" }

def ownPages : Policy :=
  { name := "own_pages", table := ⟨none, "pages"⟩ }

def schema : Schema where
  tables := [pages]
  functions := [touch]
  policies := [ownPages]

/-- PostgreSQL without partial indexes and row-level security. -/
def target : Target where
  capabilities :=
    Capabilities.postgres.overrideAll [(.partialIndexes, false), (.rowLevelSecurity, false)]

def rule : TenancyRule :=
  TenancyPolicy.rule {}

end RefusalExample

open RefusalExample in
/-- An index is refused for two reasons, both of which are reported; nothing is said of the other
one, and it can be written. -/
theorem refuses_iff_reported_pages :
    ∃ report, target.capabilities.validateUnder rule schema = .ok report ∧
      (report.issues.filter (·.isRefusal)).map (fun issue => (issue.location, issue.code)) =
        [("latest", .partialIndex), ("latest", .indexOrdering), ("touch", .functionLanguage),
          ("pages.own_pages", .policies)] ∧
      Succeeds (target.statement (.createIndex byTitle)) ∧
      ¬Succeeds (target.statement (.createIndex latest)) := by
  have judged : ∃ report, target.capabilities.validateUnder rule schema = .ok report := by
    decide +kernel
  rcases judged with ⟨report, validated⟩
  rcases Target.refuses_iff_reported validated with ⟨reported, judgement⟩
  refine ⟨report, validated, ?_, ?_, ?_⟩
  · rw [reported]
    decide +kernel
  · refine Classical.not_not.mp fun refused => ?_
    rcases (judgement (.index pages byTitle)).1.mp refused with keyless | objection
    · cases keyless
    · exact objection (by decide +kernel)
  · exact (judgement (.index pages latest)).1.mpr (.inr (by decide +kernel))

end SchemaDdl
