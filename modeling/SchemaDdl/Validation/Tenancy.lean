import SchemaDdl.Schema.Model

/-!
# Tenancy

Which tables hold the rows of tenants and which are shared. A mark on a table decides; without one,
a table with the tenant column belongs to tenants, and tables may be named as shared.
-/

namespace SchemaDdl

/-- What validation asks about tenants: the column that names them, and the class of a table; none
when nothing speaks for one. -/
structure TenancyRule where
  tenantColumn : String
  classify : Table → Option Tenancy

/-- How tables without a mark are classified. -/
structure TenancyPolicy where
  tenantColumn : String := "tenant_id"
  /-- Names of shared tables, with or without their schema. -/
  sharedTables : List String := []
  /-- Parts of names by which a table counts as shared; they are given in small letters. -/
  hints : List String := []
deriving DecidableEq, Repr, Inhabited

namespace TenancyPolicy

def usualHints : List String :=
  ["config", "lookup", "setting", "reference", "countries", "currencies"]

/-- The class of a table. -/
def classify (policy : TenancyPolicy) (table : Table) : Option Tenancy :=
  match table.platform.tenant with
  | some tenancy => some tenancy
  | none =>
      if table.hasColumn policy.tenantColumn then
        some .tenantScoped
      else if policy.sharedTables.contains table.name
          || policy.sharedTables.contains table.qualifiedName.text then
        some .shared
      else if policy.hints.any (Text.contains (Text.lowered table.name)) then
        some .shared
      else
        none

/-- The rule that a policy lays down. -/
def rule (policy : TenancyPolicy) : TenancyRule where
  tenantColumn := policy.tenantColumn
  classify := policy.classify

end TenancyPolicy

/-- The class of the table that a name means; of several tables of one name, the last decides. -/
def Schema.tenancyOf? (schema : Schema) (rule : TenancyRule) (defaultSchema : String)
    (name : QualifiedName) : Option Tenancy :=
  (schema.tables.reverse.find? (·.qualifiedName.agrees defaultSchema name)).bind rule.classify

end SchemaDdl
