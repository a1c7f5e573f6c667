/-!
# Codes of findings

Every kind of finding has a code that stays the same for good, by which reports are read by
machines.
-/

namespace SchemaDdl

/-- The code of a kind of finding. -/
inductive FindingCode where
  | unknownType
  | uuidType
  | jsonType
  | jsonbType
  | arrayType
  | enumType
  | rangeType
  | networkType
  | geometryType
  | serialType
  | generatedColumn
  | autoIncrementType
  | autoIncrementPrimaryKey
  | uniqueRowIdDefault
  | comment
  | duplicateColumn
  | generatedWithDefault
  | virtualGeneratedColumn
  | indexMethod
  | partialIndex
  | coveringIndex
  | indexOrdering
  | expressionIndex
  | indexUnknownColumn
  | indexStorage
  | exclusionConstraint
  | foreignKeyUnknownTable
  | foreignKeyUnknownColumn
  | constraintUnknownColumn
  | functions
  | functionLanguage
  | triggers
  | triggerUnknownTable
  | triggerAction
  | policies
  | policyUnknownTable
  | sequences
  | partitioning
  | inheritance
  | unloggedTable
  | tablespace
  | locality
  | zoneConfig
  | reservedObject
  | materializedView
  | view
  | extension
  | emptyTable
  | sqliteTableOptions
  | statementTooLarge
  | tooManyStatements
  | cockroachSerial
  | cockroachTriggerPreview
  | cockroachLocality
  | cockroachZoneConfig
  | nileTenantSequence
  | nileTenantIdType
  | nileTenantPrimaryKey
  | nileSharedReferencesTenant
  | nileMissingTenantId
  | nileSharedSequence
  | nileUnclassifiedTable
deriving DecidableEq, Repr

namespace FindingCode

def all : List FindingCode := [
  .unknownType, .uuidType, .jsonType, .jsonbType, .arrayType, .enumType, .rangeType,
  .networkType, .geometryType, .serialType, .generatedColumn, .autoIncrementType,
  .autoIncrementPrimaryKey, .uniqueRowIdDefault, .comment, .duplicateColumn,
  .generatedWithDefault, .virtualGeneratedColumn, .indexMethod, .partialIndex, .coveringIndex,
  .indexOrdering, .expressionIndex, .indexUnknownColumn, .indexStorage, .exclusionConstraint,
  .foreignKeyUnknownTable, .foreignKeyUnknownColumn, .constraintUnknownColumn, .functions,
  .functionLanguage, .triggers, .triggerUnknownTable, .triggerAction, .policies,
  .policyUnknownTable, .sequences, .partitioning, .inheritance, .unloggedTable, .tablespace,
  .locality, .zoneConfig, .reservedObject, .materializedView, .view, .extension, .emptyTable,
  .sqliteTableOptions, .statementTooLarge, .tooManyStatements, .cockroachSerial,
  .cockroachTriggerPreview, .cockroachLocality, .cockroachZoneConfig, .nileTenantSequence,
  .nileTenantIdType, .nileTenantPrimaryKey, .nileSharedReferencesTenant, .nileMissingTenantId,
  .nileSharedSequence, .nileUnclassifiedTable]

theorem mem_all (code : FindingCode) : code ∈ all := by
  cases code <;> decide

/-- The written form of a code: types, columns, indexes, constraints, functions, triggers, policies,
sequences, tables and limits have a letter each, and platforms have codes of their own. -/
def text : FindingCode → String
  | .unknownType => "DDL_T001"
  | .uuidType => "DDL_T002"
  | .jsonType => "DDL_T003"
  | .jsonbType => "DDL_T004"
  | .arrayType => "DDL_T005"
  | .enumType => "DDL_T006"
  | .rangeType => "DDL_T007"
  | .networkType => "DDL_T008"
  | .geometryType => "DDL_T009"
  | .serialType => "DDL_T010"
  | .generatedColumn => "DDL_C001"
  | .autoIncrementType => "DDL_C002"
  | .autoIncrementPrimaryKey => "DDL_C003"
  | .uniqueRowIdDefault => "DDL_C004"
  | .comment => "DDL_C005"
  | .duplicateColumn => "DDL_C006"
  | .generatedWithDefault => "DDL_C007"
  | .virtualGeneratedColumn => "DDL_C008"
  | .indexMethod => "DDL_I001"
  | .partialIndex => "DDL_I002"
  | .coveringIndex => "DDL_I003"
  | .indexOrdering => "DDL_I004"
  | .expressionIndex => "DDL_I005"
  | .indexUnknownColumn => "DDL_I006"
  | .indexStorage => "DDL_I007"
  | .exclusionConstraint => "DDL_K001"
  | .foreignKeyUnknownTable => "DDL_K002"
  | .foreignKeyUnknownColumn => "DDL_K003"
  | .constraintUnknownColumn => "DDL_K004"
  | .functions => "DDL_F001"
  | .functionLanguage => "DDL_F002"
  | .triggers => "DDL_R001"
  | .triggerUnknownTable => "DDL_R002"
  | .triggerAction => "DDL_R003"
  | .policies => "DDL_P001"
  | .policyUnknownTable => "DDL_P002"
  | .sequences => "DDL_S001"
  | .partitioning => "DDL_X001"
  | .inheritance => "DDL_X002"
  | .unloggedTable => "DDL_X003"
  | .tablespace => "DDL_X004"
  | .locality => "DDL_X005"
  | .zoneConfig => "DDL_X006"
  | .reservedObject => "DDL_X007"
  | .materializedView => "DDL_X008"
  | .view => "DDL_X009"
  | .extension => "DDL_X010"
  | .emptyTable => "DDL_X011"
  | .sqliteTableOptions => "DDL_X012"
  | .statementTooLarge => "DDL_L001"
  | .tooManyStatements => "DDL_L002"
  | .cockroachSerial => "CRDB_E100"
  | .cockroachTriggerPreview => "CRDB_W200"
  | .cockroachLocality => "CRDB_I300"
  | .cockroachZoneConfig => "CRDB_I301"
  | .nileTenantSequence => "NILE_E001"
  | .nileTenantIdType => "NILE_E002"
  | .nileTenantPrimaryKey => "NILE_E003"
  | .nileSharedReferencesTenant => "NILE_E004"
  | .nileMissingTenantId => "NILE_E005"
  | .nileSharedSequence => "NILE_I001"
  | .nileUnclassifiedTable => "NILE_W001"

/-- The code of a written form. -/
def ofText? (text : String) : Option FindingCode :=
  all.find? (·.text == text)

def unknownMessage (text : String) : String :=
  s!"unknown feature code '{text}'"

theorem ofText?_text (code : FindingCode) : ofText? code.text = some code :=
  (by decide +kernel : ∀ code ∈ all, ofText? code.text = some code) code (mem_all code)

end FindingCode

end SchemaDdl
