import SchemaDdl.Capability.BuiltIn
import SchemaDdl.Proofs.Validation.Errors

/-!
# Validation with further features

A feature only ever allows more. Where a check is made because a feature is there, an error stands
without it, so a schema that is valid stays so when features are switched on.
-/

namespace SchemaDdl

/-! ## Issues that are no worse -/

def NoWorse (before after : List Issue) : Prop :=
  ErrorFree before → ErrorFree after

namespace NoWorse

variable {first first' second second' : List Issue}

theorem refl (issues : List Issue) : NoWorse issues issues :=
  id

theorem of_eq (same : second = first) : NoWorse first second := by
  rw [same]
  exact .refl first

theorem append (left : NoWorse first first') (right : NoWorse second second') :
    NoWorse (first ++ second) (first' ++ second') := by
  intro free
  rw [errorFree_append] at free ⊢
  exact ⟨left free.1, right free.2⟩

theorem flatMap {α : Type} {items : List α} {before after : α → List Issue}
    (each : ∀ item, NoWorse (before item) (after item)) :
    NoWorse (items.flatMap before) (items.flatMap after) := by
  intro free
  rw [errorFree_flatMap] at free ⊢
  exact fun item member => each item (free item member)

theorem issueWhen {condition narrower : Bool} {location : String} {finding : Finding}
    (narrows : narrower = true → condition = true) :
    NoWorse (issueWhen condition location finding) (issueWhen narrower location finding) := by
  intro free
  cases narrower with
  | false => exact fun issue member => nomatch member
  | true => simpa [narrows rfl] using free

end NoWorse

/-! ## Further features -/

namespace Capabilities

/-- Whether a set is another one with further features, and nothing else is changed. -/
structure Extends (richer base : Capabilities) : Prop where
  alike : richer = { base with features := richer.features }
  supports : ∀ feature, base.supports feature = true → richer.supports feature = true

variable {base richer : Capabilities} {schema : Schema} {table : Table} {location : String}
  {finding : Finding} {feature : Feature}

theorem extends_override : (base.override feature true).Extends base where
  alike := rfl
  supports other supported := by
    rw [supports_override]
    split
    · rfl
    · exact supported

namespace Extends

variable (wider : richer.Extends base)

include wider

theorem family_eq : richer.family = base.family := by
  rw [wider.alike]
  rfl

theorem dialect_eq : richer.dialect = base.dialect := by
  rw [wider.alike]

theorem isAlwaysSupported_eq : richer.isAlwaysSupported = base.isAlwaysSupported := by
  rw [wider.alike]
  rfl

theorem isKnownType_eq : richer.isKnownType = base.isKnownType := by
  rw [wider.alike]
  rfl

theorem acceptsUnknownTypes_eq : richer.acceptsUnknownTypes = base.acceptsUnknownTypes := by
  rw [wider.alike]

theorem supportsLanguage_eq : richer.supportsLanguage = base.supportsLanguage := by
  rw [wider.alike]
  rfl

theorem lacks (lacking : (!richer.supports feature) = true) : (!base.supports feature) = true := by
  have further := wider.supports feature
  grind

theorem lacking {condition : Bool} :
    NoWorse (issueWhen (condition && !base.supports feature) location finding)
      (issueWhen (condition && !richer.supports feature) location finding) := by
  refine .issueWhen fun holds => ?_
  rw [Bool.and_eq_true] at holds ⊢
  exact ⟨holds.1, wider.lacks holds.2⟩

/-- The issues of something that is looked into only where its feature is there. Without the
feature there is an error already, whatever the further checks find. -/
theorem gated {checks : List Issue} (error : finding.severity = .error) :
    NoWorse (if !base.supports feature then [⟨location, finding⟩] else checks)
      (if !richer.supports feature then [⟨location, finding⟩] else checks) := by
  cases supported : base.supports feature with
  | false => exact fun free => absurd error (errorFree_singleton.mp free)
  | true =>
    rw [wider.supports feature supported]
    exact .refl checks

/-! ## Columns -/

theorem typeIssues {column : Column} :
    NoWorse (base.typeIssues schema location column)
      (richer.typeIssues schema location column) := by
  unfold Capabilities.typeIssues
  rw [wider.isAlwaysSupported_eq, wider.isKnownType_eq, wider.acceptsUnknownTypes_eq]
  dsimp only
  split
  · exact .refl []
  · cases schema.typeKind? column with
    | some kind => exact .issueWhen wider.lacks
    | none => exact .refl _

theorem generationIssues {column : Column} :
    NoWorse (base.generationIssues location column) (richer.generationIssues location column) := by
  unfold Capabilities.generationIssues
  rw [wider.family_eq]
  cases column.generated with
  | none => exact .refl []
  | some generation => exact ((NoWorse.issueWhen wider.lacks).append (.refl _)).append (.refl _)

theorem columnIssues {column : Column} :
    NoWorse (base.columnIssues schema table column)
      (richer.columnIssues schema table column) := by
  unfold Capabilities.columnIssues numberingIssues
  rw [wider.family_eq, wider.dialect_eq]
  exact ((((wider.lacking.append wider.typeIssues).append wider.generationIssues).append
    (.refl _)).append (.refl _)).append wider.lacking

/-! ## Tables -/

theorem reservation?_eq : richer.reservation? = base.reservation? := by
  rw [wider.alike]
  rfl

theorem structureIssues_eq : richer.structureIssues table = base.structureIssues table := by
  rw [Capabilities.structureIssues, wider.reservation?_eq]
  rfl

theorem targetIssues_eq {target : QualifiedName} {columns : List String} :
    richer.targetIssues schema location target columns =
      base.targetIssues schema location target columns := by
  rw [targetIssues, wider.reservation?_eq]
  rfl

theorem optionIssues :
    NoWorse (base.optionIssues table) (richer.optionIssues table) := by
  unfold Capabilities.optionIssues
  rw [wider.family_eq]
  exact ((((((wider.lacking.append wider.lacking).append wider.lacking).append
    wider.lacking).append wider.lacking).append wider.lacking).append (.refl _)).append
    wider.lacking

theorem constraintIssues {constraint : Constraint} :
    NoWorse (base.constraintIssues schema table constraint)
      (richer.constraintIssues schema table constraint) := by
  unfold Capabilities.constraintIssues
  simp only [wider.targetIssues_eq]
  exact (wider.lacking.append (.refl _)).append (.refl _)

theorem referenceIssues_eq {column : Column} :
    richer.referenceIssues schema table column = base.referenceIssues schema table column := by
  unfold Capabilities.referenceIssues
  cases column.references with
  | none => rfl
  | some reference => exact wider.targetIssues_eq

theorem supportsIndexMethod {method : IndexMethod}
    (lacking : (!richer.supportsIndexMethod method) = true) :
    (!base.supportsIndexMethod method) = true := by
  cases method with
  | custom name => exact wider.lacks lacking
  | _ =>
    rw [wider.alike] at lacking
    exact lacking

theorem indexIssues {index : Index} :
    NoWorse (base.indexIssues table index) (richer.indexIssues table index) := by
  have ignored : (!index.storage.isEmpty && richer.family = .sqlite
        || index.tablespace.isSome && !richer.supports .tablespaces) = true →
      (!index.storage.isEmpty && base.family = .sqlite
        || index.tablespace.isSome && !base.supports .tablespaces) = true := by
    have further := wider.supports .tablespaces
    rw [wider.family_eq]
    grind
  exact ((((((NoWorse.issueWhen wider.supportsIndexMethod).append wider.lacking).append
    wider.lacking).append (.refl _)).append wider.lacking).append (.refl _)).append
    (.issueWhen ignored)

theorem tableIssues :
    NoWorse (base.tableIssues schema table) (richer.tableIssues schema table) := by
  have references : NoWorse (table.columns.flatMap (base.referenceIssues schema table))
      (table.columns.flatMap (richer.referenceIssues schema table)) :=
    .flatMap fun _ => .of_eq wider.referenceIssues_eq
  exact (((((NoWorse.of_eq wider.structureIssues_eq).append
    (.flatMap fun _ => wider.columnIssues)).append wider.optionIssues).append
    (.flatMap fun _ => wider.constraintIssues)).append references).append
    (.flatMap fun _ => wider.indexIssues)

/-! ## Other objects -/

theorem functionIssues {function : StoredFunction} :
    NoWorse (base.functionIssues function) (richer.functionIssues function) := by
  unfold Capabilities.functionIssues
  rw [wider.supportsLanguage_eq]
  exact wider.gated rfl

theorem triggerIssues {trigger : Trigger} :
    NoWorse (base.triggerIssues schema trigger) (richer.triggerIssues schema trigger) := by
  unfold Capabilities.triggerIssues lacksAction
  rw [wider.family_eq]
  exact wider.gated rfl

theorem policyIssues {policy : Policy} :
    NoWorse (base.policyIssues schema policy) (richer.policyIssues schema policy) :=
  wider.gated rfl

theorem viewIssues {view : View} : NoWorse (base.viewIssues view) (richer.viewIssues view) := by
  unfold Capabilities.viewIssues
  split
  · exact .issueWhen wider.lacks
  · exact .issueWhen wider.lacks

theorem objectIssues : NoWorse (base.objectIssues schema) (richer.objectIssues schema) := by
  have enums : ∀ enumType, NoWorse (base.enumIssues enumType) (richer.enumIssues enumType) :=
    fun _ => .issueWhen wider.lacks
  have sequences : ∀ sequence, NoWorse (base.sequenceIssues sequence)
      (richer.sequenceIssues sequence) :=
    fun _ => .issueWhen wider.lacks
  have extensions : ∀ extension, NoWorse (base.extensionIssues extension)
      (richer.extensionIssues extension) :=
    fun _ => .issueWhen wider.lacks
  exact ((((((NoWorse.flatMap enums).append (.flatMap sequences)).append
    (.flatMap fun _ => wider.functionIssues)).append (.flatMap fun _ => wider.triggerIssues)).append
    (.flatMap fun _ => wider.policyIssues)).append (.flatMap fun _ => wider.viewIssues)).append
    (.flatMap extensions)

/-! ## The whole schema -/

variable {rule : TenancyRule}

theorem platformIssues_eq :
    richer.platformIssues rule schema = base.platformIssues rule schema := by
  rw [wider.alike]
  rfl

theorem issues : NoWorse (base.issues rule schema) (richer.issues rule schema) :=
  ((NoWorse.flatMap fun _ => wider.tableIssues).append wider.objectIssues).append
    (.of_eq wider.platformIssues_eq)

end Extends

/-- A schema that is valid stays so with further features. -/
theorem isValid_of_extends {rule : TenancyRule} {report : Report} (wider : richer.Extends base)
    (judged : base.validateUnder rule schema = .ok report) (valid : report.isValid = true) :
    ∃ further, richer.validateUnder rule schema = .ok further ∧ further.isValid = true := by
  rcases validateUnder_eq_ok_iff.mp judged with ⟨accepted, rfl⟩
  refine ⟨_, validateUnder_eq_ok_iff.mpr ⟨accepted, rfl⟩, ?_⟩
  rw [Report.isValid_iff] at valid ⊢
  exact wider.issues valid

end Capabilities

/-! ## An example -/

namespace ExtensionExample

def pages : Schema where
  tables := [{ name := "pages", columns := [{ name := "views", dataType := "integer" }] }]
  triggers :=
    [{ name := "touch", table := .plain "pages", timing := .after, events := [.insert],
       body := ["SELECT 1"] }]

end ExtensionExample

open ExtensionExample in
/-- The pages are valid for SQLite, and would be if it had functions. -/
theorem isValid_of_extends_pages :
    ∃ report further, Capabilities.sqlite.validateUnder (TenancyPolicy.rule {}) pages = .ok report ∧
      report.isValid = true ∧
        (Capabilities.sqlite.override .functions true).validateUnder (TenancyPolicy.rule {}) pages =
          .ok further ∧ further.isValid = true := by
  have judged : ∃ report,
      Capabilities.sqlite.validateUnder (TenancyPolicy.rule {}) pages = .ok report := by
    decide +kernel
  rcases judged with ⟨report, judged⟩
  have valid : report.isValid = true := by
    cases judged
    decide +kernel
  rcases Capabilities.isValid_of_extends Capabilities.extends_override judged valid with
    ⟨further, accepted, stays⟩
  exact ⟨report, further, judged, valid, accepted, stays⟩

end SchemaDdl
