import SchemaDdl.Capability.Set
import SchemaDdl.Defect
import SchemaDdl.Sql.Quoted
import SchemaDdl.Statement

/-!
# Targets

What statements are written for: the capabilities of a dialect and the choices of wording.
-/

namespace SchemaDdl

/-- Where statements go, and how they are worded. -/
structure Target where
  capabilities : Capabilities
  options : Options := {}
deriving Repr

namespace Target

def dialect (target : Target) : Dialect :=
  target.capabilities.dialect

def family (target : Target) : Family :=
  target.capabilities.family

def supports (target : Target) (feature : Feature) : Bool :=
  target.capabilities.supports feature

def identifier (target : Target) (name : String) : String :=
  Sql.identifier target.family name

def qualified (target : Target) (name : QualifiedName) : String :=
  Sql.qualified target.family name

def identifierList (target : Target) (names : List String) : String :=
  Sql.identifierList target.family names

def lacking (target : Target) (object : String) (construct : Construct) : Defect :=
  .unsupportedConstruct object construct target.dialect

def unsupported {α : Type} (target : Target) (object : String) (construct : Construct) :
    Attempt α :=
  .error (target.lacking object construct)

def require (target : Target) (feature : Feature) (object : String) (construct : Construct) :
    Attempt Unit :=
  if target.supports feature then .ok () else target.unsupported object construct

def phrase (condition : Bool) (text : String) : String :=
  if condition then text else ""

def phraseIfSome {α : Type} (value : Option α) (text : α → String) : String :=
  match value with
  | some value => text value
  | none => ""

def ifNotExists (target : Target) : String :=
  phrase target.options.ifNotExists "IF NOT EXISTS "

def ifExists (target : Target) : String :=
  phrase target.options.ifExists "IF EXISTS "

def cascade (target : Target) : String :=
  phrase (target.options.cascade && target.family = .postgres) " CASCADE"

def concurrently (target : Target) : String :=
  phrase (target.options.concurrently && target.supports .concurrentIndexes) "CONCURRENTLY "

def parameterList (parameters : List StorageOption) : String :=
  Text.listed (parameters.map StorageOption.text)

end Target

end SchemaDdl
