import SchemaDdl.Schema.Model
import SchemaDdl.Validation.Issue

/-!
# Issues of other objects

Types, sequences, functions, triggers, policies, views and extensions that a dialect does not have,
and triggers and policies on tables that are not there.
-/

namespace SchemaDdl.Capabilities

def enumIssues (capabilities : Capabilities) (enumType : EnumType) : List Issue :=
  issueWhen (!capabilities.supports .enums) enumType.name.text .enumTypes

def sequenceIssues (capabilities : Capabilities) (sequence : Sequence) : List Issue :=
  issueWhen (!capabilities.supports .sequences) sequence.name.text .sequences

def functionIssues (capabilities : Capabilities) (function : StoredFunction) : List Issue :=
  let location := function.name.text
  if !capabilities.supports .functions then
    [⟨location, .functions⟩]
  else
    issueWhen (!capabilities.supportsLanguage function.language) location
      (.functionLanguage function.language)

/-- Whether a trigger has nothing to do: the Postgres family runs a function, SQLite a body. -/
def lacksAction (capabilities : Capabilities) (trigger : Trigger) : Bool :=
  match capabilities.family with
  | .postgres => trigger.function.isNone
  | .sqlite => trigger.body.isEmpty

def triggerIssues (capabilities : Capabilities) (schema : Schema) (trigger : Trigger) :
    List Issue :=
  let location := trigger.location
  if !capabilities.supports .triggers then
    [⟨location, .triggers⟩]
  else
    issueWhen (schema.table? trigger.table).isNone location (.triggerUnknownTable trigger.table)
      ++ issueWhen (capabilities.lacksAction trigger) location .triggerWithoutAction

def policyIssues (capabilities : Capabilities) (schema : Schema) (policy : Policy) :
    List Issue :=
  let location := policy.location
  if !capabilities.supports .rowLevelSecurity then
    [⟨location, .policies⟩]
  else
    issueWhen (schema.table? policy.table).isNone location (.policyUnknownTable policy.table)

def viewIssues (capabilities : Capabilities) (view : View) : List Issue :=
  if view.materialized then
    issueWhen (!capabilities.supports .materializedViews) view.name.text .materializedViews
  else
    issueWhen (!capabilities.supports .views) view.name.text .views

def extensionIssues (capabilities : Capabilities) (extension : Extension) : List Issue :=
  issueWhen (!capabilities.supports .extensions) extension.name .extensions

def objectIssues (capabilities : Capabilities) (schema : Schema) : List Issue :=
  schema.enums.flatMap capabilities.enumIssues
    ++ schema.sequences.flatMap capabilities.sequenceIssues
    ++ schema.functions.flatMap capabilities.functionIssues
    ++ schema.triggers.flatMap (capabilities.triggerIssues schema)
    ++ schema.policies.flatMap (capabilities.policyIssues schema)
    ++ schema.views.flatMap capabilities.viewIssues
    ++ schema.extensions.flatMap capabilities.extensionIssues

end SchemaDdl.Capabilities
