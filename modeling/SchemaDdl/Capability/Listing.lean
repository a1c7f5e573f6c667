import SchemaDdl.Capability.BuiltIn
import SchemaDdl.Schema.Snapshot

/-!
# Listings of capability sets

A capability set as a JSON value, for readers who want to know what a dialect can express.
-/

namespace SchemaDdl

open Json

def ReservedObjects.encode (reserved : ReservedObjects) : Value :=
  .object
    [("schemas", Value.ofStrings reserved.schemas), ("tables", Value.ofStrings reserved.tables),
      ("table_prefixes", Value.ofStrings reserved.tableBeginnings)]

def BatchLimits.encode (limits : BatchLimits) : Value :=
  .object
    [("max_statement_bytes", Value.ofOption Value.ofNat limits.maxStatementBytes),
      ("max_statements_per_batch", Value.ofOption Value.ofNat limits.maxStatements)]

def Capabilities.encode (capabilities : Capabilities) : Value :=
  .object
    [("dialect", .string capabilities.dialect.name),
      ("default_schema", .string capabilities.defaultSchema),
      ("features", Value.ofStrings (capabilities.featureList.map Feature.name)),
      ("index_methods", .array (capabilities.indexMethods.map IndexMethod.encode)),
      ("always_supported_types", Value.ofStrings capabilities.alwaysSupportedTypes),
      ("known_types", Value.ofStrings capabilities.knownTypes),
      ("accepts_unknown_types", .bool capabilities.acceptsUnknownTypes),
      ("reserved", capabilities.reserved.encode),
      ("function_languages", Value.ofStrings capabilities.languages),
      ("limits", capabilities.limits.encode)]

end SchemaDdl
