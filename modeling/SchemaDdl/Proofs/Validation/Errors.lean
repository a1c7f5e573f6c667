import SchemaDdl.Proofs.Success
import SchemaDdl.Validation.Validate

/-!
# Reports without errors

Issues are put together from lists, and no error is among them when none is among the parts.
-/

namespace SchemaDdl

def ErrorFree (issues : List Issue) : Prop :=
  ∀ issue ∈ issues, issue.severity ≠ .error

section

variable {first second : List Issue}

theorem errorFree_append : ErrorFree (first ++ second) ↔ ErrorFree first ∧ ErrorFree second :=
  List.forall_mem_append

theorem errorFree_flatMap {α : Type} {items : List α} {issues : α → List Issue} :
    ErrorFree (items.flatMap issues) ↔ ∀ item ∈ items, ErrorFree (issues item) := by
  simp only [ErrorFree, List.mem_flatMap, forall_exists_index, and_imp]
  exact ⟨fun holds item member issue issueMember => holds issue item member issueMember,
    fun holds issue item member issueMember => holds item member issue issueMember⟩

theorem errorFree_singleton {issue : Issue} : ErrorFree [issue] ↔ issue.severity ≠ .error := by
  simp [ErrorFree]

theorem errorFree_issueWhen {condition : Bool} {location : String} {finding : Finding}
    (error : finding.severity = .error) :
    ErrorFree (issueWhen condition location finding) ↔ condition = false := by
  cases condition with
  | false => simp [issueWhen, ErrorFree]
  | true => simp [issueWhen, ErrorFree, Issue.severity, error]

end

theorem Report.isValid_iff {report : Report} : report.isValid = true ↔ ErrorFree report.issues := by
  simp [isValid, errors, ofSeverity, ErrorFree]

namespace Capabilities

variable {capabilities : Capabilities} {rule : TenancyRule} {policy : TenancyPolicy}
  {schema : Schema} {report : Report}

theorem validateUnder_eq_ok_iff :
    capabilities.validateUnder rule schema = .ok report ↔
      schema.rejectMalformed = .ok () ∧
        report = ⟨capabilities, capabilities.issues rule schema⟩ := by
  unfold validateUnder
  rw [bind_eq_ok_iff]
  constructor
  · rintro ⟨_, accepted, equal⟩
    cases equal
    exact ⟨accepted, rfl⟩
  · rintro ⟨accepted, rfl⟩
    exact ⟨(), accepted, rfl⟩

theorem issues_of_validate (validated : capabilities.validate policy schema = .ok report) :
    report.issues = capabilities.issues policy.rule schema := by
  rw [(validateUnder_eq_ok_iff.mp validated).2]

theorem errorFree_of_isValid (validated : capabilities.validate policy schema = .ok report)
    (valid : report.isValid = true) :
    (∀ table ∈ schema.tables, ErrorFree (capabilities.tableIssues schema table)) ∧
      ErrorFree (capabilities.objectIssues schema) ∧
      ErrorFree (capabilities.platformIssues policy.rule schema) := by
  have free := Report.isValid_iff.mp valid
  rw [issues_of_validate validated, issues, errorFree_append, errorFree_append,
    errorFree_flatMap] at free
  exact ⟨free.1.1, free.1.2, free.2⟩

end Capabilities

end SchemaDdl
