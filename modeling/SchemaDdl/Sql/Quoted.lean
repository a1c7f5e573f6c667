import SchemaDdl.Schema.Name
import SchemaDdl.Sql.Reserved

/-!
# Quoting

How names and string literals are written. A name is written bare when a reader takes it for the
same name again, and between double quotes otherwise.
-/

namespace SchemaDdl.Sql

def isBareChar (char : Char) : Bool :=
  char.isLower || char.isDigit || char == '_'

def needsQuoting (family : Family) (name : String) : Bool :=
  match name.toList with
  | [] => true
  | first :: rest =>
      first.isDigit || !(first :: rest).all isBareChar || isReserved family name

def enclose (quote : Char) (text : List Char) : List Char :=
  quote :: text.flatMap (fun c => if c = quote then [quote, quote] else [c]) ++ [quote]

/-- A name as it is written in a statement. -/
def identifier (family : Family) (name : String) : String :=
  if needsQuoting family name then String.ofList (enclose '"' name.toList) else name

/-- A qualified name with each part quoted on its own. -/
def qualified (family : Family) (name : QualifiedName) : String :=
  match name.schema with
  | some schema => identifier family schema ++ "." ++ identifier family name.name
  | none => identifier family name.name

/-- A string literal. -/
def literal (text : String) : String :=
  String.ofList (enclose '\'' text.toList)

def identifierList (family : Family) (names : List String) : String :=
  Text.listed (names.map (identifier family))

example : identifier .postgres "order" = "\"order\"" := by decide +kernel
example : identifier .sqlite "a\"b" = "\"a\"\"b\"" := by decide +kernel
example : literal "it's" = "'it''s'" := by decide +kernel

end SchemaDdl.Sql
