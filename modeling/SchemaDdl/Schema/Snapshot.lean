import SchemaDdl.Json.Decode
import SchemaDdl.Json.Reader
import SchemaDdl.Schema.Model

/-!
# Snapshots

A snapshot is a schema as a JSON value. Members come in the order of declaration; those at their
default are left out where that default is empty. Decoding takes back every snapshot that encoding
makes, and is as strict as `Json.Decode` says.
-/

namespace SchemaDdl

open Json
open Json.Decode

/-! ## Members that may be left out -/

def memberIfSome {α : Type} (key : String) (encode : α → Value) :
    Option α → List (String × Value)
  | none => []
  | some value => [(key, encode value)]

def memberIfNonempty {α : Type} (key : String) (encode : α → Value) :
    List α → List (String × Value)
  | [] => []
  | values => [(key, .array (values.map encode))]

/-! ## Names and parameters -/

def QualifiedName.encode (name : QualifiedName) : Value :=
  .string name.text

def QualifiedName.decode : Decoder QualifiedName :=
  fun value => (string value).map QualifiedName.ofText

def StorageOption.encode (option : StorageOption) : Value :=
  .object [("key", .string option.key), ("value", .string option.value)]

def StorageOption.decode : Decoder StorageOption := fun value => do
  let fields ← members ["key", "value"] value
  let key ← required "key" string fields
  let value ← required "value" string fields
  return ⟨key, value⟩

/-! ## Columns -/

def ReferentialAction.codes : List (String × ReferentialAction) := [
  ("no_action", .noAction), ("restrict", .restrict), ("cascade", .cascade),
  ("set_null", .setNull), ("set_default", .setDefault)]

def ReferentialAction.code : ReferentialAction → String
  | .noAction => "no_action"
  | .restrict => "restrict"
  | .cascade => "cascade"
  | .setNull => "set_null"
  | .setDefault => "set_default"

def ReferentialAction.encode (action : ReferentialAction) : Value :=
  .string action.code

def ReferentialAction.decode : Decoder ReferentialAction := named ReferentialAction.codes

def ReferentialAction.decodeWithin : Decoder ReferentialAction :=
  namedWithin ReferentialAction.codes

def Reference.encode (reference : Reference) : Value :=
  .object <|
    [("table", reference.table.encode), ("column", .string reference.column)]
      ++ memberIfSome "on_delete" ReferentialAction.encode reference.onDelete
      ++ memberIfSome "on_update" ReferentialAction.encode reference.onUpdate

def Reference.decode : Decoder Reference := fun value => do
  let fields ← members ["table", "column", "on_delete", "on_update"] value
  let table ← required "table" QualifiedName.decode fields
  let column ← required "column" string fields
  let onDelete ← optional "on_delete" ReferentialAction.decode fields
  let onUpdate ← optional "on_update" ReferentialAction.decode fields
  return { table, column, onDelete, onUpdate }

def Literal.encode : Literal → Value
  | .null => .string "null"
  | .boolean value => .object [("boolean", .bool value)]
  | .integer value => .object [("integer", .number (.integer value))]
  | .float value => .object [("float", .number (.float value))]
  | .string value => .object [("string", .string value)]
  | .json value => .object [("json", value)]

def Literal.decode : Decoder Literal
  | .string "null" => some .null
  | .object [("null", .null)] => some .null
  | .object [("boolean", value)] => (Decode.bool value).map .boolean
  | .object [("integer", value)] => (Decode.int64 value).map .integer
  | .object [("float", value)] => (Decode.float value).map .float
  | .object [("string", value)] => (Decode.string value).map .string
  | .object [("json", value)] => value.settle?.map .json
  | _ => none

def Sentinel.codes : List (String × Sentinel) := [
  ("empty_object", .emptyObject), ("empty_array", .emptyArray),
  ("gen_random_uuid", .genRandomUuid), ("current_timestamp", .currentTimestamp),
  ("current_date", .currentDate), ("unique_row_id", .uniqueRowId)]

def Sentinel.code : Sentinel → String
  | .emptyObject => "empty_object"
  | .emptyArray => "empty_array"
  | .genRandomUuid => "gen_random_uuid"
  | .currentTimestamp => "current_timestamp"
  | .currentDate => "current_date"
  | .uniqueRowId => "unique_row_id"

def Sentinel.decode : Decoder Sentinel := named Sentinel.codes

def Default.encode : Default → Value
  | .literal value => .object [("literal", value.encode)]
  | .raw expression => .object [("raw", .string expression)]
  | .sentinel value => .object [("sentinel", .string value.code)]

def Default.decode : Decoder Default
  | .object [("literal", value)] => (Literal.decode value).map .literal
  | .object [("raw", value)] => (string value).map .raw
  | .object [("sentinel", value)] => (Sentinel.decode value).map .sentinel
  | _ => none

def Generation.encode (generation : Generation) : Value :=
  .object [("expression", .string generation.expression), ("stored", .bool generation.stored)]

def Generation.decode : Decoder Generation := fun value => do
  let fields ← members ["expression", "stored"] value
  let expression ← required "expression" string fields
  let stored ← defaulted "stored" true bool fields
  return ⟨expression, stored⟩

def Column.keys : List String := [
  "name", "data_type", "nullable", "primary_key", "unique", "auto_increment", "generated",
  "default", "references", "check", "array_dimensions", "collation", "comment"]

def Column.encode (column : Column) : Value :=
  .object <|
    [("name", .string column.name), ("data_type", .string column.dataType),
        ("nullable", .bool column.nullable), ("primary_key", .bool column.primaryKey),
        ("unique", .bool column.unique), ("auto_increment", .bool column.autoIncrement)]
      ++ memberIfSome "generated" Generation.encode column.generated
      ++ memberIfSome "default" Default.encode column.default
      ++ memberIfSome "references" Reference.encode column.references
      ++ memberIfSome "check" Value.string column.check
      ++ [("array_dimensions", Value.ofNat column.arrayDimensions)]
      ++ memberIfSome "collation" Value.string column.collation
      ++ memberIfSome "comment" Value.string column.comment

def Column.decode : Decoder Column := fun value => do
  let fields ← members Column.keys value
  let name ← required "name" string fields
  let dataType ← required "data_type" string fields
  let nullable ← defaulted "nullable" true bool fields
  let primaryKey ← defaulted "primary_key" false bool fields
  let unique ← defaulted "unique" false bool fields
  let autoIncrement ← defaulted "auto_increment" false bool fields
  let generated ← optional "generated" Generation.decode fields
  let default ← optional "default" Default.decode fields
  let references ← optional "references" Reference.decode fields
  let check ← optional "check" string fields
  let arrayDimensions ← defaulted "array_dimensions" 0 (nat 255) fields
  let collation ← optional "collation" string fields
  let comment ← optional "comment" string fields
  return {
    name, dataType, nullable, primaryKey, unique, autoIncrement, generated, default, references,
    check, arrayDimensions, collation, comment }

/-! ## Constraints -/

def ExclusionElement.encode (element : ExclusionElement) : Value :=
  .object [("expression", .string element.expression), ("operator", .string element.operator)]

def ExclusionElement.decode : Decoder ExclusionElement := fun value => do
  let fields ← members ["expression", "operator"] value
  let expression ← required "expression" string fields
  let operator ← required "operator" string fields
  return ⟨expression, operator⟩

/-- The members of a kind of constraint, the one that names the kind in front. -/
def ConstraintKind.encodeMembers : ConstraintKind → List (String × Value)
  | .primaryKey columns =>
      [("type", .string "primary_key"), ("columns", Value.ofStrings columns)]
  | .unique columns => [("type", .string "unique"), ("columns", Value.ofStrings columns)]
  | .check expression => [("type", .string "check"), ("expression", .string expression)]
  | .foreignKey key =>
      [("type", .string "foreign_key"), ("columns", Value.ofStrings key.columns),
          ("references_table", key.table.encode),
          ("references_columns", Value.ofStrings key.referencedColumns)]
        ++ memberIfSome "on_delete" ReferentialAction.encode key.onDelete
        ++ memberIfSome "on_update" ReferentialAction.encode key.onUpdate
        ++ [("deferrable", .bool key.deferrable)]
  | .exclusion parts =>
      [("type", .string "exclusion"), ("method", .string parts.method),
          ("elements", .array (parts.elements.map ExclusionElement.encode))]
        ++ memberIfSome "predicate" Value.string parts.predicate

def ForeignKey.decode : Decoder ForeignKey := fun value => do
  let fields ←
    members ["columns", "references_table", "references_columns", "on_delete", "on_update",
      "deferrable"] value
  let columns ← required "columns" (list string) fields
  let table ← required "references_table" QualifiedName.decode fields
  let referencedColumns ← required "references_columns" (list string) fields
  let onDelete ← optional "on_delete" ReferentialAction.decodeWithin fields
  let onUpdate ← optional "on_update" ReferentialAction.decodeWithin fields
  let deferrable ← defaulted "deferrable" false bool fields
  return { columns, table, referencedColumns, onDelete, onUpdate, deferrable }

def Exclusion.decode : Decoder Exclusion := fun value => do
  let fields ← members ["method", "elements", "predicate"] value
  let method ← defaulted "method" "gist" string fields
  let elements ← required "elements" (list ExclusionElement.decode) fields
  let predicate ← optional "predicate" string fields
  return { method, elements, predicate }

def decodeColumns : Decoder (List String) := fun value => do
  let fields ← members ["columns"] value
  required "columns" (list string) fields

def decodeExpression : Decoder String := fun value => do
  let fields ← members ["expression"] value
  required "expression" string fields

/-- The kinds of constraints by name, in the order by which a number may name them too. -/
def ConstraintKind.decoders : List (String × Decoder ConstraintKind) := [
  ("primary_key", fun value => (decodeColumns value).map .primaryKey),
  ("unique", fun value => (decodeColumns value).map .unique),
  ("check", fun value => (decodeExpression value).map .check),
  ("foreign_key", fun value => (ForeignKey.decode value).map .foreignKey),
  ("exclusion", fun value => (Exclusion.decode value).map .exclusion)]

def ConstraintKind.decoder? : Value → Option (Decoder ConstraintKind)
  | .string name => ConstraintKind.decoders.lookup name
  | .number (.integer place) =>
      if 0 ≤ place then (ConstraintKind.decoders[place.toNat]?).map Prod.snd else none
  | _ => none

def Constraint.encode (constraint : Constraint) : Value :=
  .object (memberIfSome "name" Value.string constraint.name ++ constraint.kind.encodeMembers)

/-- A constraint is an object. It is read as a whole, so no part of it may be unreadable. -/
def Constraint.decode : Decoder Constraint := fun value => do
  let _ ← value.settle?
  let fields ← keyed ["name", "type"] value
  let name ← optional "name" string fields
  let decoder ← required "type" ConstraintKind.decoder? fields
  let kind ← decoder value
  return { name, kind }

/-! ## Indexes -/

def IndexMethod.encode : IndexMethod → Value
  | .custom name => .object [("custom", .string name)]
  | method => .string method.sql

def IndexMethod.codes : List (String × IndexMethod) := [
  ("btree", .btree), ("b-tree", .btree), ("hash", .hash), ("gin", .gin), ("gist", .gist),
  ("brin", .brin), ("spgist", .spgist)]

def IndexMethod.decode : Decoder IndexMethod
  | .object [("custom", value)] => (string value).map .custom
  | value => named IndexMethod.codes value

def SortDirection.code : SortDirection → String
  | .ascending => "asc"
  | .descending => "desc"

def SortDirection.decode : Decoder SortDirection :=
  named [("asc", .ascending), ("desc", .descending)]

def NullsOrder.code : NullsOrder → String
  | .first => "first"
  | .last => "last"

def NullsOrder.decode : Decoder NullsOrder :=
  named [("first", .first), ("last", .last)]

def IndexTarget.encode : IndexTarget → Value
  | .column name => .object [("column", .string name)]
  | .expression text => .object [("expression", .string text)]

def IndexTarget.decode : Decoder IndexTarget
  | .object [("column", value)] => (string value).map .column
  | .object [("expression", value)] => (string value).map .expression
  | _ => none

def IndexKey.encode (key : IndexKey) : Value :=
  .object <|
    [("target", key.target.encode)]
      ++ memberIfSome "direction" (fun direction => .string direction.code) key.direction
      ++ memberIfSome "nulls" (fun nulls => .string nulls.code) key.nulls

def IndexKey.decode : Decoder IndexKey := fun value => do
  let fields ← members ["target", "direction", "nulls"] value
  let target ← required "target" IndexTarget.decode fields
  let direction ← optional "direction" SortDirection.decode fields
  let nulls ← optional "nulls" NullsOrder.decode fields
  return { target, direction, nulls }

def Index.keyNames : List String := [
  "name", "table", "columns", "method", "unique", "predicate", "include", "storage", "tablespace"]

def Index.encode (index : Index) : Value :=
  .object <|
    [("name", .string index.name), ("table", index.table.encode),
        ("columns", .array (index.keys.map IndexKey.encode)), ("method", index.method.encode),
        ("unique", .bool index.unique)]
      ++ memberIfSome "predicate" Value.string index.predicate
      ++ memberIfNonempty "include" Value.string index.covering
      ++ memberIfNonempty "storage" StorageOption.encode index.storage
      ++ memberIfSome "tablespace" Value.string index.tablespace

def Index.decode : Decoder Index := fun value => do
  let fields ← members Index.keyNames value
  let name ← required "name" string fields
  let table ← required "table" QualifiedName.decode fields
  let keys ← required "columns" (list IndexKey.decode) fields
  let method ← defaulted "method" .btree IndexMethod.decode fields
  let unique ← defaulted "unique" false bool fields
  let predicate ← optional "predicate" string fields
  let covering ← defaulted "include" [] (list string) fields
  let storage ← defaulted "storage" [] (list StorageOption.decode) fields
  let tablespace ← optional "tablespace" string fields
  return { name, table, keys, method, unique, predicate, covering, storage, tablespace }

/-! ## Tables -/

def PartitionStrategy.code : PartitionStrategy → String
  | .range => "range"
  | .list => "list"
  | .hash => "hash"

def PartitionStrategy.decode : Decoder PartitionStrategy :=
  named [("range", .range), ("list", .list), ("hash", .hash)]

def Partitioning.encode (partitioning : Partitioning) : Value :=
  .object
    [("strategy", .string partitioning.strategy.code),
      ("columns", Value.ofStrings partitioning.columns)]

def Partitioning.decode : Decoder Partitioning := fun value => do
  let fields ← members ["strategy", "columns"] value
  let strategy ← required "strategy" PartitionStrategy.decode fields
  let columns ← required "columns" (list string) fields
  return ⟨strategy, columns⟩

def TableOptions.encode (options : TableOptions) : Value :=
  .object <|
    [("temporary", .bool options.temporary), ("unlogged", .bool options.unlogged)]
      ++ memberIfSome "tablespace" Value.string options.tablespace
      ++ memberIfNonempty "with" StorageOption.encode options.parameters
      ++ [("without_rowid", .bool options.withoutRowid), ("strict", .bool options.strict)]

def TableOptions.decode : Decoder TableOptions := fun value => do
  let fields ←
    members ["temporary", "unlogged", "tablespace", "with", "without_rowid", "strict"] value
  let temporary ← defaulted "temporary" false bool fields
  let unlogged ← defaulted "unlogged" false bool fields
  let tablespace ← optional "tablespace" string fields
  let parameters ← defaulted "with" [] (list StorageOption.decode) fields
  let withoutRowid ← defaulted "without_rowid" false bool fields
  let strict ← defaulted "strict" false bool fields
  return { temporary, unlogged, tablespace, parameters, withoutRowid, strict }

def Tenancy.code : Tenancy → String
  | .tenantScoped => "tenant_scoped"
  | .shared => "shared"

def Tenancy.decode : Decoder Tenancy :=
  named [("tenant_scoped", .tenantScoped), ("shared", .shared)]

def PlatformSettings.encode (platform : PlatformSettings) : Value :=
  .object <|
    memberIfSome "locality" Value.string platform.locality
      ++ memberIfNonempty "zone_config" StorageOption.encode platform.zoneConfig
      ++ memberIfSome "tenant" (fun tenancy => .string tenancy.code) platform.tenant

def PlatformSettings.decode : Decoder PlatformSettings := fun value => do
  let fields ← members ["locality", "zone_config", "tenant"] value
  let locality ← optional "locality" string fields
  let zoneConfig ← defaulted "zone_config" [] (list StorageOption.decode) fields
  let tenant ← optional "tenant" Tenancy.decode fields
  return { locality, zoneConfig, tenant }

def Table.keys : List String := [
  "name", "schema", "columns", "constraints", "indexes", "inherits", "partitioning", "options",
  "comment", "extensions"]

def Table.encode (table : Table) : Value :=
  .object <|
    [("name", .string table.name)]
      ++ memberIfSome "schema" Value.string table.schema
      ++ [("columns", .array (table.columns.map Column.encode))]
      ++ memberIfNonempty "constraints" Constraint.encode table.constraints
      ++ memberIfNonempty "indexes" Index.encode table.indexes
      ++ memberIfNonempty "inherits" QualifiedName.encode table.inherits
      ++ memberIfSome "partitioning" Partitioning.encode table.partitioning
      ++ (if table.options.isDefault then [] else [("options", table.options.encode)])
      ++ memberIfSome "comment" Value.string table.comment
      ++ (if table.platform.isEmpty then [] else [("extensions", table.platform.encode)])

def Table.decode : Decoder Table := fun value => do
  let fields ← members Table.keys value
  let name ← required "name" string fields
  let schema ← optional "schema" string fields
  let columns ← required "columns" (list Column.decode) fields
  let constraints ← defaulted "constraints" [] (list Constraint.decode) fields
  let indexes ← defaulted "indexes" [] (list Index.decode) fields
  let inherits ← defaulted "inherits" [] (list QualifiedName.decode) fields
  let partitioning ← optional "partitioning" Partitioning.decode fields
  let options ← defaulted "options" {} TableOptions.decode fields
  let comment ← optional "comment" string fields
  let platform ← defaulted "extensions" {} PlatformSettings.decode fields
  return {
    name, schema, columns, constraints, indexes, inherits, partitioning, options, comment,
    platform }

/-! ## Other objects -/

def EnumType.encode (enumType : EnumType) : Value :=
  .object [("name", enumType.name.encode), ("values", Value.ofStrings enumType.values)]

def EnumType.decode : Decoder EnumType := fun value => do
  let fields ← members ["name", "values"] value
  let name ← required "name" QualifiedName.decode fields
  let values ← required "values" (list string) fields
  return ⟨name, values⟩

def Sequence.encode (sequence : Sequence) : Value :=
  .object <|
    [("name", sequence.name.encode)]
      ++ memberIfSome "owned_by" Value.string sequence.ownedBy
      ++ memberIfSome "start" Value.ofInt sequence.start
      ++ memberIfSome "increment" Value.ofInt sequence.increment

def Sequence.decode : Decoder Sequence := fun value => do
  let fields ← members ["name", "owned_by", "start", "increment"] value
  let name ← required "name" QualifiedName.decode fields
  let ownedBy ← optional "owned_by" string fields
  let start ← optional "start" int64 fields
  let increment ← optional "increment" int64 fields
  return { name, ownedBy, start, increment }

def FunctionBody.encode : FunctionBody → Value
  | .raw text => .object [("raw", .string text)]
  | .statements texts => .object [("statements", Value.ofStrings texts)]

def FunctionBody.decode : Decoder FunctionBody
  | .object [("raw", value)] => (Decode.string value).map .raw
  | .object [("statements", value)] => (Decode.list Decode.string value).map .statements
  | _ => none

def Volatility.code : Volatility → String
  | .immutable => "immutable"
  | .stable => "stable"
  | .volatile => "volatile"

def Volatility.decode : Decoder Volatility :=
  named [("immutable", .immutable), ("stable", .stable), ("volatile", .volatile)]

def StoredFunction.encode (function : StoredFunction) : Value :=
  .object <|
    [("name", function.name.encode), ("arguments", .string function.arguments),
        ("returns", .string function.returns), ("language", .string function.language),
        ("body", function.body.encode)]
      ++ memberIfSome "volatility" (fun volatility => .string volatility.code) function.volatility
      ++ [("or_replace", .bool function.orReplace)]

def StoredFunction.decode : Decoder StoredFunction := fun value => do
  let fields ←
    members ["name", "arguments", "returns", "language", "body", "volatility", "or_replace"] value
  let name ← required "name" QualifiedName.decode fields
  let arguments ← defaulted "arguments" "" string fields
  let returns ← required "returns" string fields
  let language ← required "language" string fields
  let body ← required "body" FunctionBody.decode fields
  let volatility ← optional "volatility" Volatility.decode fields
  let orReplace ← defaulted "or_replace" false bool fields
  return { name, arguments, returns, language, body, volatility, orReplace }

def TriggerTiming.code : TriggerTiming → String
  | .before => "before"
  | .after => "after"
  | .insteadOf => "instead_of"

def TriggerTiming.decode : Decoder TriggerTiming :=
  named [("before", .before), ("after", .after), ("instead_of", .insteadOf)]

def TriggerEvent.code : TriggerEvent → String
  | .insert => "insert"
  | .update => "update"
  | .delete => "delete"
  | .truncate => "truncate"

def TriggerEvent.decode : Decoder TriggerEvent :=
  named [("insert", .insert), ("update", .update), ("delete", .delete), ("truncate", .truncate)]

def Trigger.keys : List String := [
  "name", "table", "timing", "events", "for_each_row", "condition", "function", "body"]

def Trigger.encode (trigger : Trigger) : Value :=
  .object <|
    [("name", .string trigger.name), ("table", trigger.table.encode),
        ("timing", .string trigger.timing.code),
        ("events", .array (trigger.events.map fun event => .string event.code)),
        ("for_each_row", .bool trigger.forEachRow)]
      ++ memberIfSome "condition" Value.string trigger.condition
      ++ memberIfSome "function" QualifiedName.encode trigger.function
      ++ memberIfNonempty "body" Value.string trigger.body

def Trigger.decode : Decoder Trigger := fun value => do
  let fields ← members Trigger.keys value
  let name ← required "name" string fields
  let table ← required "table" QualifiedName.decode fields
  let timing ← required "timing" TriggerTiming.decode fields
  let events ← required "events" (list TriggerEvent.decode) fields
  let forEachRow ← defaulted "for_each_row" true bool fields
  let condition ← optional "condition" string fields
  let function ← optional "function" QualifiedName.decode fields
  let body ← defaulted "body" [] (list string) fields
  return { name, table, timing, events, forEachRow, condition, function, body }

def PolicyCommand.code : PolicyCommand → String
  | .all => "all"
  | .select => "select"
  | .insert => "insert"
  | .update => "update"
  | .delete => "delete"

def PolicyCommand.decode : Decoder PolicyCommand :=
  named [("all", .all), ("select", .select), ("insert", .insert), ("update", .update),
    ("delete", .delete)]

def Policy.encode (policy : Policy) : Value :=
  .object <|
    [("name", .string policy.name), ("table", policy.table.encode),
        ("command", .string policy.command.code)]
      ++ memberIfNonempty "roles" Value.string policy.roles
      ++ memberIfSome "using" Value.string policy.visible
      ++ memberIfSome "with_check" Value.string policy.writable

def Policy.decode : Decoder Policy := fun value => do
  let fields ← members ["name", "table", "command", "roles", "using", "with_check"] value
  let name ← required "name" string fields
  let table ← required "table" QualifiedName.decode fields
  let command ← defaulted "command" .all PolicyCommand.decode fields
  let roles ← defaulted "roles" [] (list string) fields
  let visible ← optional "using" string fields
  let writable ← optional "with_check" string fields
  return { name, table, command, roles, visible, writable }

def View.encode (view : View) : Value :=
  .object
    [("name", view.name.encode), ("query", .string view.query),
      ("materialized", .bool view.materialized)]

def View.decode : Decoder View := fun value => do
  let fields ← members ["name", "query", "materialized"] value
  let name ← required "name" QualifiedName.decode fields
  let query ← required "query" string fields
  let materialized ← defaulted "materialized" false bool fields
  return { name, query, materialized }

def Extension.encode (extension : Extension) : Value :=
  .object ([("name", .string extension.name)]
    ++ memberIfSome "schema" Value.string extension.schema)

def Extension.decode : Decoder Extension := fun value => do
  let fields ← members ["name", "schema"] value
  let name ← required "name" string fields
  let schema ← optional "schema" string fields
  return { name, schema }

/-! ## Schemas -/

def Schema.keys : List String := [
  "tables", "enums", "sequences", "functions", "triggers", "policies", "views", "extensions"]

def Schema.encode (schema : Schema) : Value :=
  .object <|
    [("tables", .array (schema.tables.map Table.encode))]
      ++ memberIfNonempty "enums" EnumType.encode schema.enums
      ++ memberIfNonempty "sequences" Sequence.encode schema.sequences
      ++ memberIfNonempty "functions" StoredFunction.encode schema.functions
      ++ memberIfNonempty "triggers" Trigger.encode schema.triggers
      ++ memberIfNonempty "policies" Policy.encode schema.policies
      ++ memberIfNonempty "views" View.encode schema.views
      ++ memberIfNonempty "extensions" Extension.encode schema.extensions

def Schema.decode : Decoder Schema := fun value => do
  let fields ← members Schema.keys value
  let tables ← defaulted "tables" [] (list Table.decode) fields
  let enums ← defaulted "enums" [] (list EnumType.decode) fields
  let sequences ← defaulted "sequences" [] (list Sequence.decode) fields
  let functions ← defaulted "functions" [] (list StoredFunction.decode) fields
  let triggers ← defaulted "triggers" [] (list Trigger.decode) fields
  let policies ← defaulted "policies" [] (list Policy.decode) fields
  let views ← defaulted "views" [] (list View.decode) fields
  let extensions ← defaulted "extensions" [] (list Extension.decode) fields
  return { tables, enums, sequences, functions, triggers, policies, views, extensions }

/-- The schema of a snapshot's text. -/
def Schema.ofText? (text : String) : Option Schema :=
  (Json.read text).bind Schema.decode

end SchemaDdl
