import SchemaDdl.Writing.Table

/-!
# Index definitions

The statements that create and drop an index. SQLite puts the schema before the name of the index
and has no place for nulls; the Postgres family puts it before the name of the table.
-/

namespace SchemaDdl.Target

/-- The constructs of an index that a dialect may lack, in the order in which they are looked
for. -/
def requireIndex (target : Target) (index : Index) : Attempt Unit := do
  let object := index.qualifiedName.text
  if index.keys.isEmpty then
    target.unsupported object .indexWithoutKeys
  if !target.capabilities.supportsIndexMethod index.method then
    target.unsupported object (.indexMethod index.method)
  if !index.covering.isEmpty then
    target.require .coveringIndexes object .coveringColumns
  if index.predicate.isSome then
    target.require .partialIndexes object .partialIndexes
  if index.hasExpressions then
    target.require .expressionIndexes object .expressionIndexes
  if !index.method.isOrdered && index.keys.any IndexKey.hasOrdering then
    target.unsupported object (.keyOrdering index.method)

def indexTargetText (target : Target) : IndexTarget → String
  | .column name => target.identifier name
  | .expression text => s!"({text})"

def directionText : Option SortDirection → String
  | some .ascending => " ASC"
  | some .descending => " DESC"
  | none => ""

def nullsText (target : Target) : Option NullsOrder → String
  | some .first => phrase (target.family = .postgres) " NULLS FIRST"
  | some .last => phrase (target.family = .postgres) " NULLS LAST"
  | none => ""

def indexKeyText (target : Target) (key : IndexKey) : String :=
  target.indexTargetText key.target ++ directionText key.direction ++ target.nullsText key.nulls

def indexPlaceText (target : Target) (index : Index) : String :=
  match target.family with
  | .postgres => s!"{target.identifier index.name} ON {target.qualified index.table}"
  | .sqlite => s!"{target.qualified index.qualifiedName} ON {target.identifier index.table.name}"

def indexStorageText (target : Target) (index : Index) : String :=
  match target.family with
  | .postgres => parametersText index.storage ++ target.tablespaceText index.tablespace
  | .sqlite => ""

def indexText (target : Target) (index : Index) : String :=
  "CREATE " ++ phrase index.unique "UNIQUE " ++ "INDEX " ++ target.concurrently
    ++ target.ifNotExists ++ target.indexPlaceText index
    ++ phrase (index.method != .btree) s!" USING {index.method.sql}"
    ++ s!" ({Text.listed (index.keys.map target.indexKeyText)})"
    ++ phrase (!index.covering.isEmpty) s!" INCLUDE ({target.identifierList index.covering})"
    ++ target.indexStorageText index
    ++ phraseIfSome index.predicate fun predicate => s!" WHERE {predicate}"

/-- The statement text that creates an index. -/
def createIndexText (target : Target) (index : Index) : Attempt String := do
  target.requireIndex index
  return target.indexText index

def dropIndexText (target : Target) (index : Index) : String :=
  "DROP INDEX " ++ target.concurrently ++ target.ifExists
    ++ target.qualified index.qualifiedName ++ target.cascade

end SchemaDdl.Target
