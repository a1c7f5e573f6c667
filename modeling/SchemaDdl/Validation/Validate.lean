import SchemaDdl.Validation.Malformed
import SchemaDdl.Validation.Objects
import SchemaDdl.Validation.Platform
import SchemaDdl.Validation.Tables

/-!
# Validation

A schema is judged against a capability set. Nothing stops at the first issue: all are found, those
of tables first, then those of other objects, and then those of the platform.
-/

namespace SchemaDdl

def Capabilities.platformIssues (capabilities : Capabilities) (rule : TenancyRule)
    (schema : Schema) : List Issue :=
  match capabilities.dialect with
  | .cockroachDb => schema.cockroachIssues
  | .nile => schema.nileIssues rule capabilities.defaultSchema
  | .postgres | .sqlite | .d1 => []

/-- All issues of a schema. -/
def Capabilities.issues (capabilities : Capabilities) (rule : TenancyRule)
    (schema : Schema) : List Issue :=
  schema.tables.flatMap (capabilities.tableIssues schema)
    ++ capabilities.objectIssues schema
    ++ capabilities.platformIssues rule schema

/-- The report on a schema, unless it has a malformed function. -/
def Capabilities.validateUnder (capabilities : Capabilities) (rule : TenancyRule)
    (schema : Schema) : Attempt Report := do
  schema.rejectMalformed
  return { capabilities, issues := capabilities.issues rule schema }

/-- The report under the rule of a policy. -/
def Capabilities.validate (capabilities : Capabilities) (policy : TenancyPolicy)
    (schema : Schema) : Attempt Report :=
  capabilities.validateUnder policy.rule schema

end SchemaDdl
