import SchemaDdl.Schema.Objects
import SchemaDdl.Schema.Table

/-!
# Schemas

A whole schema at one moment, and how names are looked up in it.
-/

namespace SchemaDdl

/-- Everything that a database schema holds. -/
structure Schema where
  tables : List Table := []
  enums : List EnumType := []
  sequences : List Sequence := []
  functions : List StoredFunction := []
  triggers : List Trigger := []
  policies : List Policy := []
  views : List View := []
  extensions : List Extension := []
deriving Repr, BEq, Inhabited

namespace Schema

/-- The table of a name. A name without a schema means the table of that name without a schema when
there is one, else the first table of that name. -/
def table? (schema : Schema) (name : QualifiedName) : Option Table :=
  match name.schema with
  | some _ => schema.tables.find? (·.qualifiedName == name)
  | none =>
      let candidates := schema.tables.filter (·.name == name.name)
      (candidates.find? (·.schema.isNone)).or candidates.head?

/-- The first table whose name agrees with a name under the default schema. -/
def tableMatching? (schema : Schema) (defaultSchema : String) (name : QualifiedName) :
    Option Table :=
  schema.tables.find? (·.qualifiedName.agrees defaultSchema name)

/-- Whether there is an enumeration type of a name; without a schema, in any schema. -/
def hasEnum (schema : Schema) (typeName : String) : Bool :=
  let wanted := QualifiedName.ofText typeName
  schema.enums.any fun enumType =>
    enumType.name == wanted || (wanted.schema.isNone && enumType.name.name == wanted.name)

def isEmpty (schema : Schema) : Bool :=
  schema.tables.isEmpty && schema.enums.isEmpty && schema.sequences.isEmpty
    && schema.functions.isEmpty && schema.triggers.isEmpty && schema.policies.isEmpty
    && schema.views.isEmpty && schema.extensions.isEmpty

end Schema

end SchemaDdl
