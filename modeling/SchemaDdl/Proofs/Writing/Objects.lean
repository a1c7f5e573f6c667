import SchemaDdl.Proofs.Writing.Column
import SchemaDdl.Writing.Objects

/-!
# When other objects can be written

Objects beside tables ask for a feature of the dialect; functions ask for a language too, and
triggers for events and for something to do.
-/

namespace SchemaDdl

/-- Whether a family of dialects knows a trigger with the events: SQLite has one event for each
trigger, and neither family has one for each row of a truncation. -/
def Trigger.Fires (family : Family) (trigger : Trigger) : Prop :=
  match family with
  | .postgres =>
      trigger.events ≠ [] ∧ (trigger.forEachRow = true → TriggerEvent.truncate ∉ trigger.events)
  | .sqlite =>
      ∃ event, trigger.events = [event] ∧ event ≠ .truncate ∧ trigger.forEachRow = true

def Trigger.Acts (family : Family) (trigger : Trigger) : Prop :=
  match family with
  | .postgres => trigger.function.isSome = true
  | .sqlite => trigger.body ≠ []

namespace Target

variable {target : Target}

def viewFeature (view : View) : Feature :=
  if view.materialized then .materializedViews else .views

def TakesFunction (target : Target) (function : StoredFunction) : Prop :=
  target.supports .functions = true ∧
    target.capabilities.supportsLanguage function.language = true

def TakesTrigger (target : Target) (trigger : Trigger) : Prop :=
  target.supports .triggers = true ∧ trigger.Acts target.family ∧ trigger.Fires target.family

theorem succeeds_createEnumText {enumType : EnumType} :
    Succeeds (target.createEnumText enumType) ↔ target.supports .enums = true := by
  simp [createEnumText]

theorem succeeds_createSequenceText {sequence : Sequence} :
    Succeeds (target.createSequenceText sequence) ↔ target.supports .sequences = true := by
  simp [createSequenceText]

theorem succeeds_createFunctionText {function : StoredFunction} :
    Succeeds (target.createFunctionText function) ↔ target.TakesFunction function := by
  simp only [createFunctionText, TakesFunction, succeeds_bind_unit, succeeds_guard,
    succeeds_require, not_succeeds_unsupported, succeeds_pure, and_true, imp_false,
    Bool.not_eq_true', Bool.not_eq_false]

theorem succeeds_createPolicyText {policy : Policy} :
    Succeeds (target.createPolicyText policy) ↔ target.supports .rowLevelSecurity = true := by
  simp [createPolicyText]

theorem succeeds_enableRowLevelSecurityText {table : QualifiedName} :
    Succeeds (target.enableRowLevelSecurityText table) ↔
      target.supports .rowLevelSecurity = true := by
  simp [enableRowLevelSecurityText]

theorem succeeds_createExtensionText {extension : Extension} :
    Succeeds (target.createExtensionText extension) ↔ target.supports .extensions = true := by
  simp [createExtensionText]

theorem succeeds_createViewText {view : View} :
    Succeeds (target.createViewText view) ↔ target.supports (viewFeature view) = true := by
  unfold createViewText viewFeature
  cases view.materialized <;> simp

theorem succeeds_createTriggerText {trigger : Trigger} :
    Succeeds (target.createTriggerText trigger) ↔ target.TakesTrigger trigger := by
  unfold createTriggerText TakesTrigger Trigger.Acts Trigger.Fires
  cases target.family with
  | postgres =>
      cases action : trigger.function with
      | none => simp [postgresTriggerText, succeeds_bind_unit, action]
      | some function =>
          simp only [postgresTriggerText, action, succeeds_bind_unit, succeeds_guard,
            succeeds_require, not_succeeds_unsupported, succeeds_pure, and_true, imp_false]
          simp
  | sqlite =>
      rcases several : trigger.events with _ | ⟨event, _ | ⟨second, events⟩⟩
      · simp [sqliteTriggerText, succeeds_bind_unit, several]
      · simp only [sqliteTriggerText, several, succeeds_bind_unit, succeeds_guard,
          succeeds_require, not_succeeds_unsupported, succeeds_pure, and_true, imp_false]
        simp only [List.isEmpty_iff, List.cons.injEq, and_true, exists_eq_left', Bool.not_eq_true',
          Bool.not_eq_false]
        constructor
        · intro holds
          rcases holds with ⟨supported, notTruncate, eachRow, acts⟩
          exact ⟨supported, acts, notTruncate, eachRow⟩
        · intro holds
          rcases holds with ⟨supported, acts, notTruncate, eachRow⟩
          exact ⟨supported, notTruncate, eachRow, acts⟩
      · simp [sqliteTriggerText, succeeds_bind_unit, several]

end Target

end SchemaDdl
