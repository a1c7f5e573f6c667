import SchemaDdl.Schema.Objects
import SchemaDdl.Writing.Target

/-!
# Definitions of other objects

The statements that create enumeration types, sequences, functions, triggers, policies, views and
extensions.
-/

namespace SchemaDdl.Target

/-! ## Types and sequences -/

def createEnumText (target : Target) (enumType : EnumType) : Attempt String := do
  target.require .enums enumType.name.text .enumTypes
  let labels := Text.listed (enumType.values.map Sql.literal)
  return s!"CREATE TYPE {target.qualified enumType.name} AS ENUM ({labels})"

def addEnumLabelText (target : Target) (enumType : QualifiedName) (label : String)
    (before : Option String) : String :=
  s!"ALTER TYPE {target.qualified enumType} ADD VALUE {Sql.literal label}"
    ++ phraseIfSome before fun next => s!" BEFORE {Sql.literal next}"

def createSequenceText (target : Target) (sequence : Sequence) : Attempt String := do
  target.require .sequences sequence.name.text .sequences
  return "CREATE SEQUENCE " ++ target.ifNotExists ++ target.qualified sequence.name
    ++ phraseIfSome sequence.increment (fun step => s!" INCREMENT BY {step}")
    ++ phraseIfSome sequence.start (fun start => s!" START WITH {start}")

def ownSequenceText (target : Target) (sequence : QualifiedName) (owner : String) : String :=
  s!"ALTER SEQUENCE {target.qualified sequence} OWNED BY {owner}"

/-! ## Functions -/

/-- The body of a function as it stands between the tags. Statements of a procedural function make
up a block. -/
def functionBodyText (function : StoredFunction) : String :=
  match function.body with
  | .raw text => text
  | .statements statements =>
      let bare := statements.map Text.withoutFinalSemicolons
      if Text.sameLetters function.language "plpgsql" then
        "\nBEGIN\n" ++ String.join (bare.map fun text => s!"    {text};\n") ++ "END;\n"
      else
        "\n" ++ Text.join ";\n" bare ++ ";\n"

/-- The tag at the two ends of a body; one that the body holds already is avoided. -/
def dollarTag (body : String) : String :=
  if Text.contains body "$$" then "$fn$" else "$$"

def createFunctionText (target : Target) (function : StoredFunction) : Attempt String := do
  let object := function.name.text
  target.require .functions object .storedFunctions
  if !target.capabilities.supportsLanguage function.language then
    target.unsupported object (.language function.language)
  let body := functionBodyText function
  let tag := dollarTag body
  return "CREATE " ++ phrase function.orReplace "OR REPLACE "
    ++ s!"FUNCTION {target.qualified function.name}({function.arguments})"
    ++ s!" RETURNS {function.returns} LANGUAGE {function.language}"
    ++ phraseIfSome function.volatility (" " ++ ·.sql)
    ++ s!" AS {tag}{body}{tag}"

/-! ## Triggers -/

def postgresTriggerText (target : Target) (trigger : Trigger) : Attempt String := do
  let object := trigger.location
  target.require .triggers object .triggers
  match trigger.function with
  | none => target.unsupported object .triggerWithoutFunction
  | some function =>
      if trigger.events.isEmpty then
        target.unsupported object .triggerWithoutEvents
      if trigger.forEachRow && trigger.events.contains .truncate then
        target.unsupported object .rowLevelTruncate
      let events := Text.join " OR " (trigger.events.map TriggerEvent.sql)
      let level := if trigger.forEachRow then "ROW" else "STATEMENT"
      return s!"CREATE TRIGGER {target.identifier trigger.name} {trigger.timing.sql} {events}"
        ++ s!" ON {target.qualified trigger.table} FOR EACH {level}"
        ++ phraseIfSome trigger.condition (fun condition => s!" WHEN ({condition})")
        ++ s!" EXECUTE FUNCTION {target.qualified function}()"

def sqliteTriggerText (target : Target) (trigger : Trigger) : Attempt String := do
  let object := trigger.location
  target.require .triggers object .triggers
  match trigger.events with
  | [event] =>
      if event = .truncate then
        target.unsupported object .truncateTriggers
      if !trigger.forEachRow then
        target.unsupported object .statementTriggers
      if trigger.body.isEmpty then
        target.unsupported object .triggerWithoutBody
      return "CREATE TRIGGER " ++ target.ifNotExists
        ++ s!"{target.identifier trigger.name} {trigger.timing.sql} {event.sql}"
        ++ s!" ON {target.qualified trigger.table} FOR EACH ROW"
        ++ phraseIfSome trigger.condition (fun condition => s!" WHEN {condition}")
        ++ "\nBEGIN\n"
        ++ String.join (trigger.body.map fun text =>
          s!"    {Text.withoutFinalSemicolons text};\n")
        ++ "END"
  | _ => target.unsupported object .severalEvents

def createTriggerText (target : Target) (trigger : Trigger) : Attempt String :=
  match target.family with
  | .postgres => target.postgresTriggerText trigger
  | .sqlite => target.sqliteTriggerText trigger

/-! ## Row-level security -/

def enableRowLevelSecurityText (target : Target) (table : QualifiedName) : Attempt String := do
  target.require .rowLevelSecurity table.text .rowLevelSecurity
  return s!"ALTER TABLE {target.qualified table} ENABLE ROW LEVEL SECURITY"

def roleText (target : Target) (role : String) : String :=
  if Text.sameLetters role "public" then "PUBLIC" else target.identifier role

def createPolicyText (target : Target) (policy : Policy) : Attempt String := do
  target.require .rowLevelSecurity policy.location .policies
  return s!"CREATE POLICY {target.identifier policy.name} ON {target.qualified policy.table}"
    ++ s!" FOR {policy.command.sql}"
    ++ phrase (!policy.roles.isEmpty) s!" TO {Text.listed (policy.roles.map target.roleText)}"
    ++ phraseIfSome policy.visible (fun condition => s!" USING ({condition})")
    ++ phraseIfSome policy.writable (fun condition => s!" WITH CHECK ({condition})")

/-! ## Views and extensions -/

def createViewText (target : Target) (view : View) : Attempt String := do
  if view.materialized then
    target.require .materializedViews view.name.text .materializedViews
  else
    target.require .views view.name.text .views
  return "CREATE " ++ phrase view.materialized "MATERIALIZED " ++ "VIEW " ++ target.ifNotExists
    ++ s!"{target.qualified view.name} AS {view.query}"

def createExtensionText (target : Target) (extension : Extension) : Attempt String := do
  target.require .extensions extension.name .extensions
  return s!"CREATE EXTENSION IF NOT EXISTS {target.identifier extension.name}"
    ++ phraseIfSome extension.schema fun schema => s!" SCHEMA {target.identifier schema}"

end SchemaDdl.Target
