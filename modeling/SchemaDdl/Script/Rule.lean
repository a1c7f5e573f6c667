import SchemaDdl.Dialect
import SchemaDdl.Script.Pattern

/-!
# Rules of adaptation

The rules by which a script is made fit for a platform: what each looks for, and what it writes
instead. Their order matters, for a rule sees the script as the rules before it left it. On Nile,
functions go first, so that no later rule looks into their bodies.
-/

namespace SchemaDdl.Script

/-- A rule for adapting scripts. -/
structure Rule where
  /-- The code by which the rule is known for good. -/
  code : String
  description : String
  pattern : Pattern
  replacement : String
deriving DecidableEq, Repr

namespace Rule

def spansBody (rule : Rule) : Bool :=
  match rule.pattern with
  | .definition _ => true
  | _ => false

def removal (code description : String) (pattern : Pattern) : Rule :=
  ⟨code, description, pattern, ""⟩

/-- The statements that begin with one of some phrases. -/
def statements (heads : List Text.Phrase) : Pattern :=
  .statement heads .anything

def removeExtensions (code : String) : Rule :=
  removal code "Remove CREATE EXTENSION statements" (statements [["CREATE", "EXTENSION"]])

def replaceUuidCalls (code : String) : Rule where
  code := code
  description := "Replace uuid_generate_v4() with gen_random_uuid()"
  pattern := .call "uuid_generate_v4"
  replacement := "gen_random_uuid()"

/-! ## Nile -/

def removeFunctions : Rule :=
  removal "NILE-TF-001" "Remove function definitions" <| .definition [
    ["CREATE", "FUNCTION"], ["CREATE", "PROCEDURE"],
    ["CREATE", "OR", "REPLACE", "FUNCTION"], ["CREATE", "OR", "REPLACE", "PROCEDURE"]]

def removeTriggers : Rule :=
  removal "NILE-TF-002" "Remove trigger definitions" <| .statement
    [["CREATE", "TRIGGER"], ["CREATE", "CONSTRAINT", "TRIGGER"],
      ["CREATE", "OR", "REPLACE", "TRIGGER"],
      ["CREATE", "OR", "REPLACE", "CONSTRAINT", "TRIGGER"]]
    (.holds [["EXECUTE", "FUNCTION"], ["EXECUTE", "PROCEDURE"]])

def removeSecurityToggles : Rule :=
  removal "NILE-TF-003" "Remove row-level security toggles" <| .statement
    [["ALTER", "TABLE"]]
    (.endsWith
      [["ENABLE", "ROW", "LEVEL", "SECURITY"], ["DISABLE", "ROW", "LEVEL", "SECURITY"],
        ["FORCE", "ROW", "LEVEL", "SECURITY"]])

def removePolicies : Rule :=
  removal "NILE-TF-004" "Remove row-level security policies"
    (statements [["CREATE", "POLICY"], ["ALTER", "POLICY"], ["DROP", "POLICY"]])

def removeGrants : Rule :=
  removal "NILE-TF-005" "Remove GRANT statements" (statements [["GRANT"]])

def removeRevokes : Rule :=
  removal "NILE-TF-006" "Remove REVOKE statements" (statements [["REVOKE"]])

/-! ## CockroachDB -/

def dropUnlogged : Rule where
  code := "CRDB-TF-003"
  description := "Drop the UNLOGGED table modifier"
  pattern := .phrase ["CREATE", "UNLOGGED", "TABLE"]
  replacement := "CREATE TABLE"

/-! ## D1 -/

def removeTransactions : Rule :=
  removal "D1-TF-001" "Remove explicit transaction statements" <| .sentence [
    ["BEGIN"], ["BEGIN", "TRANSACTION"],
    ["BEGIN", "DEFERRED"], ["BEGIN", "DEFERRED", "TRANSACTION"],
    ["BEGIN", "IMMEDIATE"], ["BEGIN", "IMMEDIATE", "TRANSACTION"],
    ["BEGIN", "EXCLUSIVE"], ["BEGIN", "EXCLUSIVE", "TRANSACTION"],
    ["COMMIT"], ["COMMIT", "TRANSACTION"],
    ["END", "TRANSACTION"],
    ["ROLLBACK"], ["ROLLBACK", "TRANSACTION"]]

def removeForeignKeyPragmas : Rule :=
  removal "D1-TF-002" "Remove PRAGMA foreign_keys statements"
    (statements [["PRAGMA", "foreign_keys"]])

end Rule

/-- The rules of a dialect in their order; scripts for Postgres and SQLite stay as they are. -/
def rules : Dialect → List Rule
  | .nile => [
      .removeFunctions, .removeTriggers, .removeSecurityToggles, .removePolicies, .removeGrants,
      .removeRevokes, .removeExtensions "NILE-TF-007", .replaceUuidCalls "NILE-TF-008"]
  | .cockroachDb => [
      .removeExtensions "CRDB-TF-001", .replaceUuidCalls "CRDB-TF-002", .dropUnlogged]
  | .d1 => [.removeTransactions, .removeForeignKeyPragmas]
  | .postgres | .sqlite => []

end SchemaDdl.Script
