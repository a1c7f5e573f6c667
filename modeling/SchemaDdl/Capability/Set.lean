import SchemaDdl.Capability.Feature
import SchemaDdl.Dialect
import SchemaDdl.Schema.Index

/-!
# Capability sets

What a target can express: its features, types, index methods and languages, the objects that belong
to the platform, and the limits on batches. A generator or validator is told everything about its
target by one of these.
-/

namespace SchemaDdl

/-- The objects of the platform, whose names a schema must not take. -/
structure ReservedObjects where
  schemas : List String := []
  tables : List String := []
  tableBeginnings : List String := []
deriving DecidableEq, Repr, Inhabited

/-- Why a name is reserved. -/
inductive Reservation where
  | schema (name : String)
  | table (name : QualifiedName)
  | beginning (text : String)
deriving DecidableEq, Repr

def Reservation.message : Reservation → String
  | .schema name => s!"schema '{name}' is managed by the platform"
  | .table name => s!"table '{name.text}' is managed by the platform"
  | .beginning text => s!"table names starting with '{text}' are reserved"

namespace ReservedObjects

def reservedSchema? (reserved : ReservedObjects) (table : QualifiedName) : Option String :=
  match table.schema with
  | some schema => if reserved.schemas.any (Text.sameLetters · schema) then some schema else none
  | none => none

/-- Why the name of a table is reserved, the schema being looked at first and then the whole
name. -/
def reservation? (reserved : ReservedObjects) (defaultSchema : String) (table : QualifiedName) :
    Option Reservation :=
  match reserved.reservedSchema? table with
  | some schema => some (.schema schema)
  | none =>
      if reserved.tables.any fun name => (QualifiedName.ofText name).agrees defaultSchema table then
        some (.table table)
      else
        (reserved.tableBeginnings.find? (Text.startsWith (Text.lowered table.name) ·)).map
          .beginning

end ReservedObjects

/-- How large a batch of statements may be. -/
structure BatchLimits where
  maxStatementBytes : Option Nat := none
  maxStatements : Option Nat := none
deriving DecidableEq, Repr, Inhabited

/-- What a dialect can express. -/
structure Capabilities where
  dialect : Dialect
  /-- The schema of a name that has none. -/
  defaultSchema : String
  features : List Feature
  indexMethods : List IndexMethod
  /-- Canonical base names that every column may have. -/
  alwaysSupportedTypes : List String
  /-- Further canonical base names that are known. -/
  knownTypes : List String
  acceptsUnknownTypes : Bool
  reserved : ReservedObjects
  languages : List String
  limits : BatchLimits
deriving DecidableEq, Repr

namespace Capabilities

def family (capabilities : Capabilities) : Family :=
  capabilities.dialect.family

def supports (capabilities : Capabilities) (feature : Feature) : Bool :=
  capabilities.features.contains feature

def featureList (capabilities : Capabilities) : List Feature :=
  Feature.all.filter capabilities.supports

/-- Whether an index method is supported; one of its own name comes from an extension. -/
def supportsIndexMethod (capabilities : Capabilities) (method : IndexMethod) : Bool :=
  match method with
  | .custom _ => capabilities.supports .extensions
  | known => capabilities.indexMethods.contains known

def isAlwaysSupported (capabilities : Capabilities) (canonical : String) : Bool :=
  capabilities.alwaysSupportedTypes.contains canonical

def isKnownType (capabilities : Capabilities) (canonical : String) : Bool :=
  capabilities.isAlwaysSupported canonical || capabilities.knownTypes.contains canonical

def supportsLanguage (capabilities : Capabilities) (language : String) : Bool :=
  capabilities.languages.any (Text.sameLetters · language)

def override (capabilities : Capabilities) (feature : Feature) (enabled : Bool) : Capabilities :=
  let others := capabilities.features.filter (· != feature)
  { capabilities with features := if enabled then feature :: others else others }

def overrideAll (capabilities : Capabilities) (overrides : List (Feature × Bool)) : Capabilities :=
  overrides.foldl (fun set (feature, enabled) => set.override feature enabled) capabilities

theorem supports_override (capabilities : Capabilities) (feature other : Feature)
    (enabled : Bool) :
    (capabilities.override feature enabled).supports other =
      if other = feature then enabled else capabilities.supports other := by
  by_cases same : other = feature
  · cases enabled <;> simp [override, supports, same]
  · cases enabled <;> simp [override, supports, same, List.contains_eq_mem]

end Capabilities

end SchemaDdl
