import SchemaDdl.Dialect

/-!
# Reserved words

The words of each family that cannot stand for a name unless they are quoted.
-/

namespace SchemaDdl.Sql

/-- The reserved words of the Postgres family, those that only CockroachDB reserves included. -/
def postgresReserved : List String := [
  "all", "analyse", "analyze", "and", "any", "array", "as", "asc", "asymmetric", "authorization",
  "binary", "both", "case", "cast", "check", "collate", "collation", "column", "concurrently",
  "constraint", "create", "cross", "current_catalog", "current_date", "current_role",
  "current_schema", "current_time", "current_timestamp", "current_user", "default", "deferrable",
  "desc", "distinct", "do", "else", "end", "except", "false", "family", "fetch", "for",
  "foreign", "freeze", "from", "full", "grant", "group", "having", "ilike", "in", "index",
  "initially", "inner", "intersect", "into", "is", "isnull", "join", "lateral", "leading",
  "left", "like", "limit", "localtime", "localtimestamp", "natural", "not", "nothing", "notnull",
  "null", "offset", "on", "only", "or", "order", "outer", "overlaps", "placing", "primary",
  "references", "returning", "right", "select", "session_user", "similar", "some", "symmetric",
  "system_user", "table", "tablesample", "then", "to", "trailing", "true", "union", "unique",
  "user", "using", "variadic", "verbose", "when", "where", "window", "with"]

def sqliteReserved : List String := [
  "abort", "action", "add", "after", "all", "alter", "always", "analyze", "and", "as", "asc",
  "attach", "autoincrement", "before", "begin", "between", "by", "cascade", "case", "cast",
  "check", "collate", "column", "commit", "conflict", "constraint", "create", "cross", "current",
  "current_date", "current_time", "current_timestamp", "database", "default", "deferrable",
  "deferred", "delete", "desc", "detach", "distinct", "do", "drop", "each", "else", "end",
  "escape", "except", "exclude", "exclusive", "exists", "explain", "fail", "filter", "first",
  "following", "for", "foreign", "from", "full", "generated", "glob", "group", "groups",
  "having", "if", "ignore", "immediate", "in", "index", "indexed", "initially", "inner",
  "insert", "instead", "intersect", "into", "is", "isnull", "join", "key", "last", "left",
  "like", "limit", "match", "materialized", "natural", "no", "not", "nothing", "notnull", "null",
  "nulls", "of", "offset", "on", "or", "order", "others", "outer", "over", "partition", "plan",
  "pragma", "preceding", "primary", "query", "raise", "range", "recursive", "references",
  "regexp", "reindex", "release", "rename", "replace", "restrict", "returning", "right",
  "rollback", "row", "rows", "savepoint", "select", "set", "table", "temp", "temporary", "then",
  "ties", "to", "transaction", "trigger", "unbounded", "union", "unique", "update", "using",
  "vacuum", "values", "view", "virtual", "when", "where", "window", "with", "without"]

def reservedWords : Family → List String
  | .postgres => postgresReserved
  | .sqlite => sqliteReserved

def isReserved (family : Family) (word : String) : Bool :=
  (reservedWords family).contains (Text.lowered word)

end SchemaDdl.Sql
