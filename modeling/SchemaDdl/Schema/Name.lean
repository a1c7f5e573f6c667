import SchemaDdl.Text.Segment

/-!
# Names of schema objects

A name with an optional schema in front, its dotted text, and when two names mean the same object.
-/

namespace SchemaDdl

/-- The name of an object, with or without its schema. -/
structure QualifiedName where
  schema : Option String
  name : String
deriving DecidableEq, Repr, Inhabited

namespace QualifiedName

/-- A name without a schema. -/
def plain (name : String) : QualifiedName := ⟨none, name⟩

/-- The text is cut at its first dot, unless one of the two parts would be empty. -/
def ofText (text : String) : QualifiedName :=
  match Text.splitFirst '.' text.toList with
  | some (schema, name) =>
      if schema.isEmpty || name.isEmpty then plain text
      else ⟨some (String.ofList schema), String.ofList name⟩
  | none => plain text

/-- The dotted text of a name. -/
def text (name : QualifiedName) : String :=
  match name.schema with
  | some schema => schema ++ "." ++ name.name
  | none => name.name

/-- The name with its schema written out. -/
def resolve (defaultSchema : String) (name : QualifiedName) : QualifiedName :=
  ⟨some (name.schema.getD defaultSchema), name.name⟩

/-- Whether two names mean the same object when a missing schema is read as the default one. -/
def agrees (defaultSchema : String) (left right : QualifiedName) : Bool :=
  left.name == right.name
    && left.schema.getD defaultSchema == right.schema.getD defaultSchema

theorem agrees_iff (defaultSchema : String) (left right : QualifiedName) :
    left.agrees defaultSchema right = true ↔
      left.resolve defaultSchema = right.resolve defaultSchema := by
  simp [agrees, resolve, and_comm]

/-- The order of names: those without a schema first, then by schema, then by name. -/
def before (left right : QualifiedName) : Bool :=
  match left.schema, right.schema with
  | none, none => left.name < right.name
  | none, some _ => true
  | some _, none => false
  | some leftSchema, some rightSchema =>
      leftSchema < rightSchema || (leftSchema == rightSchema && left.name < right.name)

end QualifiedName

/-- A storage parameter. -/
structure StorageOption where
  key : String
  value : String
deriving DecidableEq, Repr, Inhabited

/-- A parameter as it is written in a statement. -/
def StorageOption.text (option : StorageOption) : String :=
  option.key ++ " = " ++ option.value

example : QualifiedName.ofText "auth.users.x" = ⟨some "auth", "users.x"⟩ := by decide +kernel
example : QualifiedName.ofText ".users" = ⟨none, ".users"⟩ := by decide +kernel

end SchemaDdl
