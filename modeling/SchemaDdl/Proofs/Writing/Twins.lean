import SchemaDdl.Proofs.Correspondence
import SchemaDdl.Proofs.Writing.Index
import SchemaDdl.Proofs.Writing.Objects
import SchemaDdl.Proofs.Writing.OneLine

/-!
# Targets that write the same

Two targets of SQLite's family that have the same options and the same features, transactions apart,
write the same statements and fail for the same actions. Only what they name in a failure differs,
and the recreation of a table, where the one begins and ends a transaction and the other does not.
-/

namespace SchemaDdl.Target

/-- Two targets of SQLite's family that differ in transactions at most, and in what they accept
beside statements. -/
structure Twins (left right : Target) : Prop where
  left_plain : left.Plain
  right_plain : right.Plain
  options : left.options = right.options
  supports : ∀ feature, feature ≠ .transactionalDdl → left.supports feature = right.supports feature
  indexMethods : left.capabilities.indexMethods = right.capabilities.indexMethods

theorem supports_d1 {feature : Feature} (other : feature ≠ .transactionalDdl) :
    Capabilities.d1.supports feature = Capabilities.sqlite.supports feature := by
  have kept := Capabilities.supports_override Capabilities.sqlite .transactionalDdl feature false
  rw [if_neg other] at kept
  exact kept

theorem twins_builtIn (options : Options) :
    Twins ⟨Capabilities.builtIn .sqlite, options⟩ ⟨Capabilities.builtIn .d1, options⟩ where
  left_plain := plain_builtIn options
  right_plain := by
    constructor
    · rfl
    · intro feature supported
      cases Decidable.em (feature = .transactionalDdl) with
      | inl transactional =>
          rw [transactional]
          rfl
      | inr other => exact (supports_d1 other).symm.trans supported
  options := rfl
  supports _ other := (supports_d1 other).symm
  indexMethods := rfl

/-! ## Rows of attempts -/

theorem forall₂_map {α β γ : Type} {Related : β → γ → Prop} {items : List α} {first : α → β}
    {second : α → γ} (related : ∀ item ∈ items, Related (first item) (second item)) :
    List.Forall₂ Related (items.map first) (items.map second) := by
  rw [List.forall₂_map_left_iff, List.forall₂_map_right_iff, List.forall₂_same]
  exact related

theorem partition_correspond {α : Type} {left right : List (Attempt α)}
    (correspond : List.Forall₂ (Correspond Eq) left right) :
    (Attempt.partition left).2 = (Attempt.partition right).2 ∧
      ((Attempt.partition left).1 = [] ↔ (Attempt.partition right).1 = []) := by
  induction correspond with
  | nil => exact ⟨rfl, Iff.rfl⟩
  | @cons first second left right same _ induction =>
      cases first with
      | error _ =>
          cases second with
          | error _ => exact ⟨induction.1, by simp [Attempt.partition]⟩
          | ok _ => exact absurd same Correspond.not_error_ok
      | ok value =>
          cases second with
          | error _ => exact absurd same Correspond.not_ok_error
          | ok _ =>
              cases Correspond.ok_iff.mp same
              exact ⟨congrArg (value :: ·) induction.1, induction.2⟩

namespace Twins

variable {left right : Target}

theorem symm (twins : Twins left right) : Twins right left where
  left_plain := twins.right_plain
  right_plain := twins.left_plain
  options := twins.options.symm
  supports feature other := (twins.supports feature other).symm
  indexMethods := twins.indexMethods.symm

theorem left_family (twins : Twins left right) : left.family = .sqlite :=
  twins.left_plain.family

theorem right_family (twins : Twins left right) : right.family = .sqlite :=
  twins.right_plain.family

/-! ## Names and phrases -/

theorem identifier (twins : Twins left right) : left.identifier = right.identifier := by
  funext name
  rw [Target.identifier, Target.identifier, twins.left_family, twins.right_family]

theorem qualified (twins : Twins left right) : left.qualified = right.qualified := by
  funext name
  rw [Target.qualified, Target.qualified, twins.left_family, twins.right_family]

theorem identifierList (twins : Twins left right) : left.identifierList = right.identifierList := by
  funext names
  rw [Target.identifierList, Target.identifierList, twins.left_family, twins.right_family]

theorem ifNotExists (twins : Twins left right) : left.ifNotExists = right.ifNotExists := by
  rw [Target.ifNotExists, Target.ifNotExists, twins.options]

theorem ifExists (twins : Twins left right) : left.ifExists = right.ifExists := by
  rw [Target.ifExists, Target.ifExists, twins.options]

theorem cascade (twins : Twins left right) : left.cascade = right.cascade := by
  rw [Target.cascade, Target.cascade, twins.options, twins.left_family, twins.right_family]

theorem concurrently (twins : Twins left right) : left.concurrently = right.concurrently := by
  rw [Target.concurrently, Target.concurrently, twins.options, twins.supports _ (by decide)]

theorem alwaysCreating (twins : Twins left right) :
    Twins left.alwaysCreating right.alwaysCreating where
  left_plain := ⟨twins.left_family, twins.left_plain.features⟩
  right_plain := ⟨twins.right_family, twins.right_plain.features⟩
  options := by rw [Target.alwaysCreating, Target.alwaysCreating, twins.options]
  supports := twins.supports
  indexMethods := twins.indexMethods

theorem require (twins : Twins left right) {feature : Feature} (other : feature ≠ .transactionalDdl)
    (object : String) (construct : Construct) :
    Correspond Eq (left.require feature object construct)
      (right.require feature object construct) := by
  unfold Target.require
  rw [twins.supports feature other]
  exact .ite (fun _ => .refl _) fun _ => .error _ _

/-! ## Columns -/

theorem generatedText (twins : Twins left right) : left.generatedText = right.generatedText := by
  funext generation
  unfold Target.generatedText
  rw [twins.left_family, twins.right_family]

theorem referencesText (twins : Twins left right) : left.referencesText = right.referencesText := by
  funext reference
  unfold Target.referencesText
  rw [twins.identifier, twins.qualified]

theorem clauseText (twins : Twins left right) : left.clauseText = right.clauseText := by
  funext clause
  cases clause with
  | generated generation => exact congrFun twins.generatedText generation
  | primaryKey automatic =>
      simp only [Target.clauseText, twins.left_family, twins.right_family]
  | references reference => exact congrFun twins.referencesText reference
  | collate collation =>
      simp only [Target.clauseText, Target.collateText, twins.left_family, twins.right_family]
  | _ => rfl

theorem definitionText (twins : Twins left right) : left.definitionText = right.definitionText := by
  funext definition
  rw [Target.definitionText, Target.definitionText, twins.identifier, twins.clauseText]

theorem columnClauses (twins : Twins left right) : left.columnClauses = right.columnClauses := by
  funext table column default
  unfold Target.columnClauses
  have none : ∀ target : Target, target.family = .sqlite →
      (decide (target.family = .postgres) && target.usesIdentity column) = false := by
    intro target sqlite
    rw [sqlite]
    rfl
  simp only [none left twins.left_family, none right twins.right_family]

theorem columnType (twins : Twins left right) (table : Table) (column : Column) :
    Correspond Eq (left.columnType table column) (right.columnType table column) := by
  unfold Target.columnType
  rw [twins.left_family, twins.right_family]
  unfold Target.sqliteType
  apply Correspond.ite
  · intro _
    exact .ite (fun _ => .refl _) fun _ => .error _ _
  · intro _
    exact .refl _

theorem sentinelDefault (twins : Twins left right) (column : Column) (sentinel : Sentinel) :
    Correspond Eq (Sql.sentinelDefault left.capabilities column sentinel)
      (Sql.sentinelDefault right.capabilities column sentinel) := by
  have leftFamily : left.capabilities.family = .sqlite := twins.left_family
  have rightFamily : right.capabilities.family = .sqlite := twins.right_family
  cases sentinel with
  | uniqueRowId =>
      have leftOther : left.capabilities.dialect ≠ .cockroachDb := by
        intro equal
        rw [Capabilities.family, equal] at leftFamily
        cases leftFamily
      have rightOther : right.capabilities.dialect ≠ .cockroachDb := by
        intro equal
        rw [Capabilities.family, equal] at rightFamily
        cases rightFamily
      rw [Sql.sentinelDefault, Sql.sentinelDefault, if_neg leftOther, if_neg rightOther]
      exact .error _ _
  | _ =>
      simp only [Sql.sentinelDefault, leftFamily, rightFamily]
      exact .refl _

theorem defaultClause? (twins : Twins left right) (table : QualifiedName) (column : Column) :
    Correspond Eq (Sql.defaultClause? left.capabilities table column)
      (Sql.defaultClause? right.capabilities table column) := by
  have families : left.capabilities.family = right.capabilities.family :=
    twins.left_family.trans twins.right_family.symm
  have written : ∀ value, Correspond Eq (Sql.writtenDefault left.capabilities column value)
      (Sql.writtenDefault right.capabilities column value) := by
    intro value
    cases value with
    | raw expression =>
        rw [Sql.writtenDefault, Sql.writtenDefault, families]
        exact .refl _
    | sentinel sentinel => exact twins.sentinelDefault column sentinel
    | literal literal =>
        rw [Sql.writtenDefault, Sql.writtenDefault, families]
        exact .refl _
  unfold Sql.defaultClause?
  cases column.default with
  | none => exact .refl _
  | some value =>
      apply Correspond.ite
      · intro _
        exact .refl _
      · intro _
        have same := written value
        split
        · rename_i text leftOk
          rw [leftOk] at same
          split
          · rename_i text' rightOk
            rw [rightOk] at same
            exact .ok (congrArg some (Correspond.ok_iff.mp same))
          · rename_i reason rightError
            rw [rightError] at same
            exact absurd same Correspond.not_ok_error
        · rename_i reason leftError
          rw [leftError] at same
          split
          · rename_i text' rightOk
            rw [rightOk] at same
            exact absurd same Correspond.not_error_ok
          · exact .error _ _

theorem columnDefinition (twins : Twins left right) (table : Table) (column : Column) :
    Correspond Eq (left.columnDefinition table column) (right.columnDefinition table column) := by
  unfold Target.columnDefinition
  rw [twins.columnClauses]
  apply (twins.columnType table column).bind_eq
  intro type
  apply (twins.defaultClause? table.qualifiedName column).bind_eq
  intro default
  exact .refl _

/-! ## Tables -/

theorem foreignKeyText (twins : Twins left right) : left.foreignKeyText = right.foreignKeyText := by
  funext key
  unfold Target.foreignKeyText
  rw [twins.identifierList, twins.qualified]

theorem constraintKindText (twins : Twins left right) :
    left.constraintKindText = right.constraintKindText := by
  funext kind
  unfold Target.constraintKindText
  rw [twins.identifierList, twins.foreignKeyText]

theorem constraintText (twins : Twins left right) : left.constraintText = right.constraintText := by
  funext constraint
  rw [Target.constraintText, Target.constraintText, twins.identifier, twins.constraintKindText]

theorem lineText (twins : Twins left right) : left.lineText = right.lineText := by
  funext line
  unfold Target.lineText
  rw [twins.definitionText, twins.constraintText, twins.identifierList]

theorem requireConstraint (twins : Twins left right) (table : Table) (constraint : Constraint) :
    Correspond Eq (left.requireConstraint table constraint)
      (right.requireConstraint table constraint) := by
  unfold Target.requireConstraint
  split
  · exact twins.require (by decide) _ _
  · exact .refl _

theorem tableLines (twins : Twins left right) (table : Table) :
    List.Forall₂ (Correspond Eq) (left.tableLines table) (right.tableLines table) := by
  unfold Target.tableLines
  have columns : List.Forall₂ (Correspond Eq) (table.columns.map (left.columnLine table))
      (table.columns.map (right.columnLine table)) := by
    apply forall₂_map
    intro column _
    exact (twins.columnDefinition table column).map fun first second same => congrArg _ same
  have key : List.Forall₂ (Correspond Eq)
      ((flaggedKeyLines table).map (Except.ok : TableLine → Attempt TableLine))
      ((flaggedKeyLines table).map (Except.ok : TableLine → Attempt TableLine)) :=
    forall₂_map fun line _ => Correspond.refl _
  have constraints : List.Forall₂ (Correspond Eq)
      (table.constraints.map (left.constraintLine table))
      (table.constraints.map (right.constraintLine table)) := by
    apply forall₂_map
    intro constraint _
    exact (twins.requireConstraint table constraint).map fun _ _ _ => rfl
  exact List.rel_append (List.rel_append columns key) constraints

theorem tableEnd (twins : Twins left right) (table : Table) :
    Correspond Eq (left.tableEnd table) (right.tableEnd table) := by
  unfold Target.tableEnd
  rw [twins.left_family, twins.right_family]
  unfold Target.sqliteTableEnd
  apply Correspond.ite
  · intro _
    exact .error _ _
  · intro _
    exact .ite (fun _ => .error _ _) fun _ => .refl _

theorem tableText (twins : Twins left right) : left.tableText = right.tableText := by
  funext table lines ending
  simp only [Target.tableText, Target.createTableVerb, twins.ifNotExists, twins.qualified,
    twins.lineText, twins.left_family, twins.right_family, reduceCtorEq, decide_false,
    Bool.and_false, Bool.false_and]

theorem createTableText (twins : Twins left right) (table : Table) :
    Correspond Eq (left.createTableText table) (right.createTableText table) := by
  unfold Target.createTableText
  apply Correspond.ite
  · intro _
    exact .error _ _
  · intro _
    rcases partition_correspond (twins.tableLines table) with ⟨sameLines, sameDefects⟩
    rcases partition_correspond (.cons (twins.tableEnd table) .nil) with ⟨sameEnd, sameEndDefects⟩
    have none_iff : Failure.ofDefects? ((Attempt.partition (left.tableLines table)).1
          ++ (Attempt.partition [left.tableEnd table]).1) = none ↔
        Failure.ofDefects? ((Attempt.partition (right.tableLines table)).1
          ++ (Attempt.partition [right.tableEnd table]).1) = none := by
      simp only [Failure.ofDefects?_eq_none, List.append_eq_nil_iff, sameDefects, sameEndDefects]
    simp only []
    rw [sameLines, sameEnd, twins.tableText]
    split
    · rename_i failed
      split
      · exact .error _ _
      · rename_i fine
        rw [none_iff.mpr fine] at failed
        cases failed
    · rename_i fine
      rw [none_iff.mp fine]
      exact .refl _

/-! ## Other statements -/

theorem columnText (twins : Twins left right) (table : Table) (column : Column) :
    Correspond Eq (left.columnText table column) (right.columnText table column) := by
  unfold Target.columnText
  rw [twins.definitionText]
  exact (twins.columnDefinition table column).bind_eq fun _ => .refl _

theorem alterTableText (twins : Twins left right) :
    left.alterTableText = right.alterTableText := by
  funext table action
  unfold Target.alterTableText
  rw [twins.qualified]

theorem addColumnText (twins : Twins left right) (table : Table) (column : Column) :
    Correspond Eq (left.addColumnText table column) (right.addColumnText table column) := by
  unfold Target.addColumnText
  rw [twins.alterTableText]
  exact (twins.columnText table column).bind_eq fun _ => .refl _

theorem dropColumnText (twins : Twins left right) : left.dropColumnText = right.dropColumnText := by
  funext table column
  rw [Target.dropColumnText, Target.dropColumnText, twins.alterTableText, twins.identifier]

theorem takesIndex (twins : Twins left right) {index : Index} (takes : left.TakesIndex index) :
    right.TakesIndex index where
  keys := takes.keys
  method := by
    have extensions : left.capabilities.supports .extensions =
        right.capabilities.supports .extensions := twins.supports .extensions (by decide)
    have method := takes.method
    unfold Capabilities.supportsIndexMethod at method ⊢
    rw [twins.indexMethods, extensions] at method
    exact method
  covering := twins.supports .coveringIndexes (by decide) ▸ takes.covering
  predicate := twins.supports .partialIndexes (by decide) ▸ takes.predicate
  expressions := twins.supports .expressionIndexes (by decide) ▸ takes.expressions
  ordering := takes.ordering

theorem requireIndex (twins : Twins left right) (index : Index) :
    Correspond Eq (left.requireIndex index) (right.requireIndex index) := by
  apply Correspond.of_succeeds_iff
  · rw [succeeds_requireIndex, succeeds_requireIndex]
    exact ⟨twins.takesIndex, twins.symm.takesIndex⟩
  · intro _ _ _ _
    rfl

theorem indexText (twins : Twins left right) : left.indexText = right.indexText := by
  funext index
  have keys : left.indexKeyText = right.indexKeyText := by
    funext key
    unfold Target.indexKeyText
    congr 1
    · congr 1
      cases key.target <;> simp only [Target.indexTargetText, twins.identifier]
    · unfold Target.nullsText
      rw [twins.left_family, twins.right_family]
  unfold Target.indexText Target.indexPlaceText Target.indexStorageText
  rw [keys, twins.concurrently, twins.ifNotExists, twins.identifier, twins.qualified,
    twins.identifierList, twins.left_family, twins.right_family]

theorem createIndexText (twins : Twins left right) (index : Index) :
    Correspond Eq (left.createIndexText index) (right.createIndexText index) := by
  unfold Target.createIndexText
  rw [twins.indexText]
  exact (twins.requireIndex index).bind_eq fun _ => .refl _

theorem dropIndexText (twins : Twins left right) : left.dropIndexText = right.dropIndexText := by
  funext index
  unfold Target.dropIndexText
  rw [twins.concurrently, twins.ifExists, twins.qualified, twins.cascade]

theorem createViewText (twins : Twins left right) (view : View) :
    Correspond Eq (left.createViewText view) (right.createViewText view) := by
  unfold Target.createViewText
  rw [twins.ifNotExists, twins.qualified]
  apply Correspond.ite
  · intro _
    exact (twins.require (by decide) _ _).bind_eq fun _ => .refl _
  · intro _
    exact (twins.require (by decide) _ _).bind_eq fun _ => .refl _

/-! ## Actions -/

theorem of_feature (twins : Twins left right) {α : Type} {Related : α → α → Prop}
    {attempt attempt' : Attempt α} (feature : Feature)
    (leftNeeds : Succeeds attempt → left.supports feature = true)
    (rightNeeds : Succeeds attempt' → right.supports feature = true)
    (lacks : Capabilities.sqlite.supports feature = false) :
    Correspond Related attempt.whole attempt'.whole := by
  apply Correspond.of_succeeds_iff
  · constructor
    · intro succeeds
      rcases succeeds with ⟨value, written⟩
      exact absurd written (twins.left_plain.not_written feature leftNeeds lacks)
    · intro succeeds
      rcases succeeds with ⟨value, written⟩
      exact absurd written (twins.right_plain.not_written feature rightNeeds lacks)
  · intro first _ written _
    exact absurd written (twins.left_plain.not_written feature leftNeeds lacks)

theorem actionText (twins : Twins left right) {action : Action} (unbroken : action.Unbroken)
    (kept : ∀ change, action ≠ .recreateTable change) :
    Correspond Eq (left.actionText action) (right.actionText action) := by
  cases action with
  | createTable table => exact twins.createTableText table
  | dropTable name =>
      rw [Target.actionText, Target.actionText, twins.ifExists, twins.qualified, twins.cascade]
      exact .refl _
  | recreateTable change => exact absurd rfl (kept change)
  | addColumn table column again => exact (twins.addColumnText table column).mapError
  | dropColumn name column =>
      rw [Target.actionText, Target.actionText, twins.dropColumnText]
      exact .refl _
  | createIndex index => exact (twins.createIndexText index).mapError
  | dropIndex index =>
      rw [Target.actionText, Target.actionText, twins.dropIndexText]
      exact .refl _
  | createView view => exact (twins.createViewText view).mapError
  | addEnumLabel name label before =>
      unfold Target.actionText addEnumLabelText
      rw [twins.qualified]
      exact .refl _
  | createExtension extension =>
      exact twins.of_feature .extensions succeeds_createExtensionText.mp
        succeeds_createExtensionText.mp (by decide)
  | createEnum enumType =>
      exact twins.of_feature .enums succeeds_createEnumText.mp succeeds_createEnumText.mp
        (by decide)
  | createSequence sequence =>
      exact twins.of_feature .sequences succeeds_createSequenceText.mp
        succeeds_createSequenceText.mp (by decide)
  | createFunction function =>
      exact twins.of_feature .functions
        (fun succeeds => (succeeds_createFunctionText.mp succeeds).1)
        (fun succeeds => (succeeds_createFunctionText.mp succeeds).1) (by decide)
  | enableRowLevelSecurity table =>
      exact twins.of_feature .rowLevelSecurity succeeds_enableRowLevelSecurityText.mp
        succeeds_enableRowLevelSecurityText.mp (by decide)
  | createPolicy policy =>
      exact twins.of_feature .rowLevelSecurity succeeds_createPolicyText.mp
        succeeds_createPolicyText.mp (by decide)
  | _ => exact unbroken.elim

end Twins

end SchemaDdl.Target
