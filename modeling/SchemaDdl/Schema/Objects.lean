import SchemaDdl.Schema.Name

/-!
# Schema objects beside tables

Enumeration types, sequences, stored functions, triggers, policies, views and extensions.
-/

namespace SchemaDdl

/-- A type given by its labels. -/
structure EnumType where
  name : QualifiedName
  values : List String
deriving DecidableEq, Repr

structure Sequence where
  name : QualifiedName
  ownedBy : Option String := none
  start : Option Int := none
  increment : Option Int := none
deriving DecidableEq, Repr

/-- The table part of the owner of a sequence, which is written `table.column`. -/
def Sequence.owningTable? (sequence : Sequence) : Option String :=
  sequence.ownedBy.bind fun owner =>
    (Text.splitLast '.' owner.toList).map fun (table, _) => String.ofList table

/-- The body of a stored function: a text, or statements to be put together. -/
inductive FunctionBody where
  | raw (text : String)
  | statements (statements : List String)
deriving DecidableEq, Repr

inductive Volatility where
  | immutable
  | stable
  | volatile
deriving DecidableEq, Repr

def Volatility.sql : Volatility → String
  | .immutable => "IMMUTABLE"
  | .stable => "STABLE"
  | .volatile => "VOLATILE"

structure StoredFunction where
  name : QualifiedName
  arguments : String := ""
  returns : String
  language : String
  body : FunctionBody
  volatility : Option Volatility := none
  orReplace : Bool := false
deriving DecidableEq, Repr

inductive TriggerTiming where
  | before
  | after
  | insteadOf
deriving DecidableEq, Repr

def TriggerTiming.sql : TriggerTiming → String
  | .before => "BEFORE"
  | .after => "AFTER"
  | .insteadOf => "INSTEAD OF"

inductive TriggerEvent where
  | insert
  | update
  | delete
  | truncate
deriving DecidableEq, Repr

def TriggerEvent.sql : TriggerEvent → String
  | .insert => "INSERT"
  | .update => "UPDATE"
  | .delete => "DELETE"
  | .truncate => "TRUNCATE"

/-- A trigger: it runs a function on the Postgres family and statements of its own on SQLite. -/
structure Trigger where
  name : String
  table : QualifiedName
  timing : TriggerTiming
  events : List TriggerEvent
  forEachRow : Bool := true
  condition : Option String := none
  function : Option QualifiedName := none
  body : List String := []
deriving DecidableEq, Repr

/-- The text by which messages name a trigger. -/
def Trigger.location (trigger : Trigger) : String :=
  s!"{trigger.table.text}.{trigger.name}"

inductive PolicyCommand where
  | all
  | select
  | insert
  | update
  | delete
deriving DecidableEq, Repr

def PolicyCommand.sql : PolicyCommand → String
  | .all => "ALL"
  | .select => "SELECT"
  | .insert => "INSERT"
  | .update => "UPDATE"
  | .delete => "DELETE"

/-- A row-level security policy: which rows are seen, and which may be written. -/
structure Policy where
  name : String
  table : QualifiedName
  command : PolicyCommand := .all
  roles : List String := []
  visible : Option String := none
  writable : Option String := none
deriving DecidableEq, Repr

/-- The text by which messages name a policy. -/
def Policy.location (policy : Policy) : String :=
  s!"{policy.table.text}.{policy.name}"

structure View where
  name : QualifiedName
  query : String
  materialized : Bool := false
deriving DecidableEq, Repr

structure Extension where
  name : String
  schema : Option String := none
deriving DecidableEq, Repr

end SchemaDdl
