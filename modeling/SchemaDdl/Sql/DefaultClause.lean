import SchemaDdl.Capability.Set
import SchemaDdl.Defect
import SchemaDdl.Json.Printer
import SchemaDdl.Schema.Table
import SchemaDdl.Sql.Expression
import SchemaDdl.Sql.Quoted

/-!
# Default clauses

What stands after `DEFAULT` for a column, in each dialect. A generated column has no default.
-/

namespace SchemaDdl.Sql

def sqliteRandomUuid : String :=
  "(lower(hex(randomblob(4))) || '-' || lower(hex(randomblob(2))) "
    ++ "|| '-4' || substr(lower(hex(randomblob(2))), 2) || '-' "
    ++ "|| substr('89ab', 1 + (abs(random()) % 4), 1) || substr(lower(hex(randomblob(2))), 2) "
    ++ "|| '-' || lower(hex(randomblob(6))))"

/-- A text as a literal of the column's type: with a cast on the Postgres family. -/
def typedLiteral (family : Family) (column : Column) (text : String) : String :=
  match family with
  | .postgres => literal text ++ "::" ++ column.declaredType
  | .sqlite => literal text

/-- An expression as a default. SQLite wants parentheses around all but constants. -/
def expressionDefault (family : Family) (expression : String) : String :=
  let text := Text.trim expression.toList
  if family = .postgres || isConstant text || isParenthesized text then
    String.ofList text
  else
    "(" ++ String.ofList text ++ ")"

def sentinelDefault (capabilities : Capabilities) (column : Column) :
    Sentinel → Except DefaultDefect String
  | .emptyObject =>
      let canonical := column.canonicalType
      if DeclaredType.isJson canonical then
        .ok (typedLiteral capabilities.family column "\x7b\x7d")
      else if DeclaredType.isTextual canonical || capabilities.family = .sqlite then
        .ok (literal "\x7b\x7d")
      else
        .error (.emptyObject column.dataType)
  | .emptyArray =>
      let canonical := column.canonicalType
      if column.isArray && capabilities.family = .postgres then
        .ok (typedLiteral capabilities.family column "\x7b\x7d")
      else if DeclaredType.isJson canonical then
        .ok (typedLiteral capabilities.family column "[]")
      else if DeclaredType.isTextual canonical || column.isArray
          || capabilities.family = .sqlite then
        .ok (literal "[]")
      else
        .error (.emptyArray column.dataType)
  | .genRandomUuid =>
      match capabilities.family with
      | .postgres => .ok "gen_random_uuid()"
      | .sqlite => .ok sqliteRandomUuid
  | .currentTimestamp => .ok "CURRENT_TIMESTAMP"
  | .currentDate => .ok "CURRENT_DATE"
  | .uniqueRowId =>
      if capabilities.dialect = .cockroachDb then .ok "unique_rowid()"
      else .error (.uniqueRowId capabilities.dialect)

def arrayElement (text : String) : String :=
  String.ofList <|
    '"' :: text.toList.flatMap (fun c => if c = '\\' ∨ c = '"' then ['\\', c] else [c]) ++ ['"']

mutual
/-- The Postgres array text of a JSON value that is an item; objects have none. -/
def arrayItem? : Json.Value → Option String
  | .null => some "NULL"
  | .bool value => some (if value then "true" else "false")
  | .number number => some number.text
  | .string text => some (arrayElement text)
  | .array items =>
      (arrayItems? items).map fun items => "\x7b" ++ Text.join "," items ++ "\x7d"
  | .object _ | .unreadable => none

def arrayItems? : List Json.Value → Option (List String)
  | [] => some []
  | item :: items =>
      match arrayItem? item, arrayItems? items with
      | some item, some items => some (item :: items)
      | _, _ => none
end

/-- The Postgres array text of JSON items. -/
def arrayText? (items : List Json.Value) : Option String :=
  arrayItem? (.array items)

def jsonDefault (family : Family) (column : Column) (value : Json.Value) :
    Except DefaultDefect String :=
  if column.isArray && family = .postgres then
    match value with
    | .array items =>
        match arrayText? items with
        | some text => .ok (typedLiteral family column text)
        | none => .error .unsupportedItems
    | _ => .error .notAnArray
  else if DeclaredType.isJson column.canonicalType then
    .ok (typedLiteral family column value.compact)
  else
    .ok (literal value.compact)

def booleanDefault (family : Family) (value : Bool) : String :=
  match family, value with
  | .postgres, true => "TRUE"
  | .postgres, false => "FALSE"
  | .sqlite, true => "1"
  | .sqlite, false => "0"

def literalDefault (family : Family) (column : Column) : Literal → Except DefaultDefect String
  | .null => .ok "NULL"
  | .boolean value => .ok (booleanDefault family value)
  | .integer value => .ok (toString value)
  | .float value => if value.isFinite then .ok value.toPlain else .error (.notFinite value)
  | .string value =>
      if isExpression value then .ok (expressionDefault family value) else .ok (literal value)
  | .json value => jsonDefault family column value

/-- The default of a column as it is written in a dialect. -/
def writtenDefault (capabilities : Capabilities) (column : Column) :
    Default → Except DefaultDefect String
  | .raw expression => .ok (expressionDefault capabilities.family expression)
  | .sentinel sentinel => sentinelDefault capabilities column sentinel
  | .literal value => literalDefault capabilities.family column value

/-- What stands after `DEFAULT` for a column of a table, when there is something. -/
def defaultClause? (capabilities : Capabilities) (table : QualifiedName) (column : Column) :
    Attempt (Option String) :=
  match column.default with
  | none => .ok none
  | some value =>
      if column.isGenerated then
        .ok none
      else
        match writtenDefault capabilities column value with
        | .ok text => .ok (some text)
        | .error reason => .error (.unsupportedDefault table column.name reason)

end SchemaDdl.Sql
