import SchemaDdl.Proofs.Correspondence
import SchemaDdl.Proofs.Validation.Targets

/-!
# Tables in another order

What validation finds about a table does not depend on where the table stands. Where a name means
one of several tables, though, the first of them counts, or on Nile the last. So the order of tables
does not matter exactly when all tables that a foreign key may mean have the columns it refers to,
or none has, as long as Nile has one class for the tables it takes for one.
-/

namespace SchemaDdl

/-! ## Names that do not depend on the order -/

namespace Schema

/-- Whether it does not matter for a column which table a name means: a table has the very name, or
all tables of a name without a schema have the column, or none has. -/
def Decides (schema : Schema) (target : QualifiedName) (column : String) : Prop :=
  target.schema = none →
    (∃ table ∈ schema.tables, table.qualifiedName = target) ∨
      ∀ left ∈ schema.tables, ∀ right ∈ schema.tables, left.name = target.name →
        right.name = target.name → left.hasColumn column = right.hasColumn column

/-- Whether no foreign key depends on which one of several tables it means. -/
def DecidesTargets (schema : Schema) : Prop :=
  ∀ table ∈ schema.tables, ∀ key ∈ table.foreignKeyColumns, ∀ column ∈ key.2,
    schema.Decides key.1 column

instance (schema : Schema) (target : QualifiedName) (column : String) :
    Decidable (schema.Decides target column) :=
  inferInstanceAs (Decidable (_ → _))

instance (schema : Schema) : Decidable schema.DecidesTargets :=
  inferInstanceAs (Decidable (∀ table ∈ schema.tables, _))

/-- Whether tables that are one under the default schema are in the same class. -/
def ClassedAlike (schema : Schema) (rule : TenancyRule) (defaultSchema : String) : Prop :=
  ∀ left ∈ schema.tables, ∀ right ∈ schema.tables,
    left.qualifiedName.agrees defaultSchema right.qualifiedName = true →
      rule.classify left = rule.classify right

def reordered (schema : Schema) (tables : List Table) : Schema :=
  { schema with tables }

variable {schema : Schema} {tables : List Table} {name : QualifiedName} {table : Table}

theorem table?_eq_none_iff :
    schema.table? name = none ↔ ∀ table ∈ schema.tables, table.qualifiedName ≠ name ∧
      (name.schema = none → table.name ≠ name.name) := by
  unfold table?
  cases written : name.schema with
  | some held => simp
  | none =>
    have unnamed : ∀ table : Table, table.name ≠ name.name → table.qualifiedName ≠ name :=
      fun table different same => different (congrArg QualifiedName.name same)
    simp only [Option.or_eq_none_iff, List.head?_eq_none_iff, List.filter_eq_nil_iff,
      List.find?_eq_none, List.mem_filter, beq_iff_eq, forall_const]
    constructor
    · intro none table member
      exact ⟨unnamed table (none.2 table member), none.2 table member⟩
    · intro none
      exact ⟨fun table held => absurd held.2 (none table held.1).2,
        fun table member => (none table member).2⟩

theorem of_table?_eq_some (found : schema.table? name = some table) :
    table ∈ schema.tables ∧ table.name = name.name := by
  unfold table? at found
  cases written : name.schema with
  | some held =>
    rw [written] at found
    have same := List.find?_some found
    exact ⟨List.mem_of_find?_eq_some found, congrArg QualifiedName.name (beq_iff_eq.mp same)⟩
  | none =>
    rw [written] at found
    have candidate : table ∈ schema.tables.filter (·.name == name.name) := by
      rcases Option.or_eq_some_iff.mp found with plain | ⟨_, first⟩
      · exact List.mem_of_find?_eq_some plain
      · exact List.mem_of_mem_head? first
    exact ⟨(List.mem_filter.mp candidate).1, beq_iff_eq.mp (List.mem_filter.mp candidate).2⟩

section

variable (perm : tables.Perm schema.tables)

include perm

theorem mem_reordered : table ∈ (schema.reordered tables).tables ↔ table ∈ schema.tables :=
  perm.mem_iff

theorem tablesDistinct_reordered (distinct : schema.TablesDistinct) :
    (schema.reordered tables).TablesDistinct :=
  (perm.map _).nodup_iff.mpr distinct

theorem isNone_table?_reordered (name : QualifiedName) :
    ((schema.reordered tables).table? name).isNone = (schema.table? name).isNone := by
  rw [Bool.eq_iff_iff, Option.isNone_iff_eq_none, Option.isNone_iff_eq_none, table?_eq_none_iff,
    table?_eq_none_iff]
  simp only [mem_reordered perm]

theorem hasColumn_reordered (distinct : schema.TablesDistinct) {other : Table} {column : String}
    (decides : schema.Decides name column) (found : schema.table? name = some table)
    (otherFound : (schema.reordered tables).table? name = some other) :
    other.hasColumn column = table.hasColumn column := by
  rcases of_table?_eq_some found with ⟨member, named⟩
  rcases of_table?_eq_some otherFound with ⟨otherMember, otherNamed⟩
  by_cases very : ∃ exact ∈ schema.tables, exact.qualifiedName = name
  · rcases very with ⟨exact, exactMember, same⟩
    have first := table?_of_distinct distinct exactMember same
    have second := table?_of_distinct (tablesDistinct_reordered perm distinct)
      ((mem_reordered perm).mpr exactMember) same
    rw [Option.some.inj (found.symm.trans first), Option.some.inj (otherFound.symm.trans second)]
  · have plain : name.schema = none := by
      by_contra qualified
      have missing : schema.table? name = none := table?_eq_none_iff.mpr fun table member =>
        ⟨fun same => very ⟨table, member, same⟩, fun plain => absurd plain qualified⟩
      cases missing.symm.trans found
    rcases decides plain with exact | same
    · exact absurd exact very
    · exact same other ((mem_reordered perm).mp otherMember) table member otherNamed named

end

/-! ## Classes that do not depend on the order -/

variable {rule : TenancyRule} {defaultSchema : String}

theorem tenancyOf?_eq_classify (alike : schema.ClassedAlike rule defaultSchema)
    (member : table ∈ schema.tables)
    (agrees : table.qualifiedName.agrees defaultSchema name = true) :
    schema.tenancyOf? rule defaultSchema name = rule.classify table := by
  unfold tenancyOf?
  cases found : schema.tables.reverse.find? (·.qualifiedName.agrees defaultSchema name) with
  | none =>
    exact absurd agrees (List.find?_eq_none.mp found table (List.mem_reverse.mpr member))
  | some last =>
    have lastAgrees := List.find?_some found
    have lastMember := List.mem_reverse.mp (List.mem_of_find?_eq_some found)
    exact alike last lastMember table member
      (QualifiedName.agrees_trans lastAgrees (QualifiedName.agrees_symm agrees))

theorem tenancyOf?_eq_none
    (none : ∀ table ∈ schema.tables, table.qualifiedName.agrees defaultSchema name = false) :
    schema.tenancyOf? rule defaultSchema name = .none := by
  have missing : schema.tables.reverse.find? (·.qualifiedName.agrees defaultSchema name) =
      .none := by
    rw [List.find?_eq_none]
    intro table member
    simp [none table (List.mem_reverse.mp member)]
  rw [tenancyOf?, missing]
  rfl

theorem tenancyOf?_reordered (perm : tables.Perm schema.tables)
    (alike : schema.ClassedAlike rule defaultSchema) :
    (schema.reordered tables).tenancyOf? rule defaultSchema =
      schema.tenancyOf? rule defaultSchema := by
  have reorderedAlike : (schema.reordered tables).ClassedAlike rule defaultSchema :=
    fun left leftMember right rightMember =>
      alike left ((mem_reordered perm).mp leftMember) right ((mem_reordered perm).mp rightMember)
  funext name
  by_cases held : ∃ table ∈ schema.tables, table.qualifiedName.agrees defaultSchema name = true
  · rcases held with ⟨table, member, agrees⟩
    rw [tenancyOf?_eq_classify alike member agrees,
      tenancyOf?_eq_classify reorderedAlike ((mem_reordered perm).mpr member) agrees]
  · have none : ∀ table ∈ schema.tables,
        table.qualifiedName.agrees defaultSchema name = false := fun table member =>
      Bool.eq_false_iff.mpr fun agrees => held ⟨table, member, agrees⟩
    rw [tenancyOf?_eq_none none,
      tenancyOf?_eq_none fun table member => none table ((mem_reordered perm).mp member)]

end Schema

/-! ## Issues -/

namespace Capabilities

variable {capabilities : Capabilities} {schema : Schema} {rule : TenancyRule}
  {tables : List Table} (perm : tables.Perm schema.tables)

include perm

theorem targetFindings_reordered (distinct : schema.TablesDistinct) {target : QualifiedName}
    {columns : List String} (decides : ∀ column ∈ columns, schema.Decides target column) :
    capabilities.targetFindings (schema.reordered tables) target columns =
      capabilities.targetFindings schema target columns := by
  have alike := Schema.isNone_table?_reordered perm target
  unfold targetFindings
  cases found : schema.table? target with
  | none =>
    rw [found] at alike
    rw [Option.isNone_iff_eq_none.mp alike]
  | some table =>
    cases otherFound : (schema.reordered tables).table? target with
    | none =>
      rw [found, otherFound] at alike
      cases alike
    | some other =>
      refine congrArg (List.map _) (List.filter_congr fun column member => ?_)
      rw [Schema.hasColumn_reordered perm distinct (decides column member) found otherFound]

theorem tableIssues_reordered (distinct : schema.TablesDistinct) {table : Table}
    (decides : ∀ key ∈ table.foreignKeyColumns, ∀ column ∈ key.2, schema.Decides key.1 column) :
    capabilities.tableIssues (schema.reordered tables) table =
      capabilities.tableIssues schema table := by
  have targets : ∀ key ∈ table.foreignKeyColumns, ∀ location,
      capabilities.targetIssues (schema.reordered tables) location key.1 key.2 =
        capabilities.targetIssues schema location key.1 key.2 := by
    intro key member location
    rw [targetIssues_eq, targetIssues_eq,
      targetFindings_reordered perm distinct (decides key member)]
  have constraints : table.constraints.flatMap
      (capabilities.constraintIssues (schema.reordered tables) table) =
        table.constraints.flatMap (capabilities.constraintIssues schema table) := by
    refine List.flatMap_congr fun constraint member => ?_
    unfold constraintIssues
    refine congrArg (List.append _) ?_
    cases carried : constraint.foreignKey? with
    | none => rfl
    | some key =>
      refine targets (key.table, key.referencedColumns) ?_ _
      refine List.mem_append_right _ (List.mem_filterMap.mpr ⟨constraint, member, ?_⟩)
      rw [carried]
      rfl
  have references : table.columns.flatMap
      (capabilities.referenceIssues (schema.reordered tables) table) =
        table.columns.flatMap (capabilities.referenceIssues schema table) := by
    refine List.flatMap_congr fun column member => ?_
    unfold referenceIssues
    cases carried : column.references with
    | none => rfl
    | some reference =>
      refine targets (reference.table, [reference.column]) ?_ _
      refine List.mem_append_left _ (List.mem_filterMap.mpr ⟨column, member, ?_⟩)
      rw [carried]
      rfl
  rw [tableIssues, constraints, references]
  rfl

theorem objectIssues_reordered :
    capabilities.objectIssues (schema.reordered tables) = capabilities.objectIssues schema := by
  have triggers : capabilities.triggerIssues (schema.reordered tables) =
      capabilities.triggerIssues schema := by
    funext trigger
    unfold triggerIssues
    rw [Schema.isNone_table?_reordered perm]
  have policies : capabilities.policyIssues (schema.reordered tables) =
      capabilities.policyIssues schema := by
    funext policy
    unfold policyIssues
    rw [Schema.isNone_table?_reordered perm]
  rw [objectIssues, triggers, policies]
  rfl

theorem platformIssues_reordered
    (alike : capabilities.dialect = .nile → schema.ClassedAlike rule capabilities.defaultSchema) :
    (capabilities.platformIssues rule (schema.reordered tables)).Perm
      (capabilities.platformIssues rule schema) := by
  unfold platformIssues
  split
  · exact (perm.flatMap_right _).append_right _
  · rename_i nile
    have tenancy := Schema.tenancyOf?_reordered perm (alike nile)
    have issues : (schema.reordered tables).nileTableIssues rule capabilities.defaultSchema =
        schema.nileTableIssues rule capabilities.defaultSchema := by
      funext table
      unfold Schema.nileTableIssues Schema.sharedTableIssues
      rw [tenancy]
    have sequences : (schema.reordered tables).nileSequenceIssue rule capabilities.defaultSchema =
        schema.nileSequenceIssue rule capabilities.defaultSchema := by
      funext sequence
      unfold Schema.nileSequenceIssue
      rw [tenancy]
    unfold Schema.nileIssues
    rw [issues, sequences]
    exact (perm.flatMap_right _).append_right _
  all_goals exact .refl _

theorem issues_reordered (distinct : schema.TablesDistinct)
    (alike : capabilities.dialect = .nile → schema.ClassedAlike rule capabilities.defaultSchema)
    (decides : schema.DecidesTargets) :
    (capabilities.issues rule (schema.reordered tables)).Perm
      (capabilities.issues rule schema) := by
  have same : tables.flatMap (capabilities.tableIssues (schema.reordered tables)) =
      tables.flatMap (capabilities.tableIssues schema) :=
    List.flatMap_congr fun table member =>
      tableIssues_reordered perm distinct (decides table (perm.mem_iff.mp member))
  have found : (tables.flatMap (capabilities.tableIssues (schema.reordered tables))).Perm
      (schema.tables.flatMap (capabilities.tableIssues schema)) := by
    rw [same]
    exact perm.flatMap_right _
  unfold issues
  rw [objectIssues_reordered perm]
  exact (found.append_right _).append (platformIssues_reordered perm alike)

end Capabilities

/-! ## Reports -/

/-- Whether two reports hold the same issues in whatever order, so that their verdicts and their
counts agree. -/
structure Report.SameIssues (left right : Report) : Prop where
  issues : left.issues.Perm right.issues
  isValid : left.isValid = right.isValid
  counts : ∀ severity, (left.ofSeverity severity).length = (right.ofSeverity severity).length

theorem Report.sameIssues_of_perm {left right : Report} (perm : left.issues.Perm right.issues) :
    left.SameIssues right where
  issues := perm
  isValid := (perm.filter _).isEmpty_eq
  counts _ := (perm.filter _).length_eq

namespace Capabilities

/-- Whether the order of tables does not matter to validation: it fails for all orders or for none,
and the reports hold the same issues. -/
def IgnoresOrder (capabilities : Capabilities) (rule : TenancyRule) (schema : Schema) : Prop :=
  ∀ tables, tables.Perm schema.tables →
    Correspond Report.SameIssues (capabilities.validateUnder rule schema)
      (capabilities.validateUnder rule (schema.reordered tables))

variable {capabilities : Capabilities} {schema : Schema} {rule : TenancyRule} {tables : List Table}

theorem correspond_validateUnder_iff :
    Correspond Report.SameIssues (capabilities.validateUnder rule schema)
        (capabilities.validateUnder rule (schema.reordered tables)) ↔
      (Succeeds (capabilities.validateUnder rule schema) →
        (capabilities.issues rule schema).Perm
          (capabilities.issues rule (schema.reordered tables))) := by
  have same : (schema.reordered tables).rejectMalformed = schema.rejectMalformed := rfl
  unfold validateUnder
  rw [same]
  cases schema.rejectMalformed with
  | error defect =>
    exact iff_of_true (.error _ _) fun succeeds => absurd succeeds (not_succeeds_error defect)
  | ok _ =>
    constructor
    · exact fun alike _ => (alike.related rfl rfl).issues
    · exact fun perm => .ok (Report.sameIssues_of_perm (perm ⟨_, rfl⟩))

/-! ## Targets that depend on the order -/

section

variable {name : QualifiedName} {column : String}

theorem table?_reordered_cons (plain : name.schema = none)
    (unheld : ∀ table ∈ schema.tables, table.qualifiedName ≠ name) {first : Table}
    {others : List Table} (perm : (first :: others).Perm schema.tables)
    (named : first.name = name.name) :
    (schema.reordered (first :: others)).table? name = some first := by
  have candidates : (first :: others).filter (·.name == name.name) =
      first :: others.filter (·.name == name.name) :=
    List.filter_cons_of_pos (beq_iff_eq.mpr named)
  have qualified : ((first :: others).filter (·.name == name.name)).find? (·.schema.isNone) =
      none := by
    rw [List.find?_eq_none]
    intro table member isNone
    rcases List.mem_filter.mp member with ⟨among, same⟩
    refine unheld table (perm.mem_iff.mp among) ?_
    rw [Table.qualifiedName, Option.isNone_iff_eq_none.mp isNone, beq_iff_eq.mp same, ← plain]
  unfold Schema.table? Schema.reordered
  rw [plain]
  dsimp only
  rw [qualified, candidates]
  rfl

theorem unknownTargetColumn_mem_targetFindings {target : QualifiedName} {columns : List String} :
    .unknownTargetColumn name column ∈ capabilities.targetFindings schema target columns ↔
      (target = name ∧ column ∈ columns) ∧
        ∃ table, schema.table? name = some table ∧ table.hasColumn column = false := by
  unfold targetFindings
  constructor
  · intro member
    split at member
    · rename_i table found
      rcases List.mem_map.mp member with ⟨other, among, same⟩
      cases same
      rcases List.mem_filter.mp among with ⟨asked, lacks⟩
      exact ⟨⟨rfl, asked⟩, table, found, by simpa using lacks⟩
    · split at member
      · cases List.mem_singleton.mp member
      · cases member
  · rintro ⟨⟨rfl, asked⟩, table, found, lacks⟩
    rw [found]
    exact List.mem_map.mpr ⟨column, List.mem_filter.mpr ⟨asked, by simp [lacks]⟩, rfl⟩

theorem reports_unknownTargetColumn_iff {table : Table} (member : table ∈ schema.tables)
    {key : QualifiedName × List String} (among : key ∈ table.foreignKeyColumns)
    (asked : column ∈ key.2) :
    Reports (.unknownTargetColumn key.1 column) (capabilities.issues rule schema) ↔
      ∃ target, schema.table? key.1 = some target ∧ target.hasColumn column = false := by
  rw [reports_issues rfl]
  simp only [unknownTargetColumn_mem_targetFindings]
  constructor
  · rintro ⟨_, _, _, _, _, lacks⟩
    exact lacks
  · exact fun lacks => ⟨table, member, key, among, ⟨rfl, asked⟩, lacks⟩

end

/-- A schema whose validation ignores the order has no two tables of one name of which only one has
a column that a foreign key without a schema asks for: each of them may come first. -/
theorem hasColumn_of_ignoresOrder (ignores : capabilities.IgnoresOrder rule schema)
    (succeeds : Succeeds (capabilities.validateUnder rule schema)) {table : Table}
    (member : table ∈ schema.tables) {key : QualifiedName × List String}
    (among : key ∈ table.foreignKeyColumns) {column : String} (asked : column ∈ key.2)
    (plain : key.1.schema = none) (unheld : ∀ table ∈ schema.tables, table.qualifiedName ≠ key.1)
    {left right : Table} (leftMember : left ∈ schema.tables) (rightMember : right ∈ schema.tables)
    (leftNamed : left.name = key.1.name) (rightNamed : right.name = key.1.name)
    (has : left.hasColumn column = true) : right.hasColumn column = true := by
  -- Whether the column is reported in an order that begins with a table of the name.
  have reports : ∀ first ∈ schema.tables, first.name = key.1.name →
      (Reports (.unknownTargetColumn key.1 column) (capabilities.issues rule schema) ↔
        first.hasColumn column = false) := by
    intro first firstMember named
    rcases List.append_of_mem firstMember with ⟨before, after, split⟩
    have perm : (first :: (before ++ after)).Perm schema.tables := by
      rw [split]
      exact List.perm_middle.symm
    have same := correspond_validateUnder_iff.mp (ignores _ perm) succeeds
    have meant := table?_reordered_cons plain unheld perm named
    have moved : Reports (.unknownTargetColumn key.1 column) (capabilities.issues rule schema) ↔
        Reports (.unknownTargetColumn key.1 column)
          (capabilities.issues rule (schema.reordered (first :: (before ++ after)))) := by
      simp only [Reports, same.mem_iff]
    rw [moved, reports_unknownTargetColumn_iff ((Schema.mem_reordered perm).mpr member) among asked,
      meant]
    simp
  cases lacks : right.hasColumn column with
  | true => rfl
  | false =>
    have unreported := (reports left leftMember leftNamed).mp
      ((reports right rightMember rightNamed).mpr lacks)
    cases unreported.symm.trans has

/-- Validation ignores the order of tables exactly when it fails, or no foreign key depends on which
one of several tables it means; on Nile, tables that are one to the platform are of one class. -/
theorem ignoresOrder_iff (distinct : schema.TablesDistinct)
    (alike : capabilities.dialect = .nile → schema.ClassedAlike rule capabilities.defaultSchema) :
    capabilities.IgnoresOrder rule schema ↔
      (Succeeds (capabilities.validateUnder rule schema) → schema.DecidesTargets) := by
  constructor
  · intro ignores succeeds table member key among column asked plain
    by_cases held : ∃ table ∈ schema.tables, table.qualifiedName = key.1
    · exact .inl held
    · have unheld : ∀ table ∈ schema.tables, table.qualifiedName ≠ key.1 :=
        fun table member same => held ⟨table, member, same⟩
      refine .inr fun left leftMember right rightMember leftNamed rightNamed => ?_
      rw [Bool.eq_iff_iff]
      exact ⟨hasColumn_of_ignoresOrder ignores succeeds member among asked plain unheld leftMember
          rightMember leftNamed rightNamed,
        hasColumn_of_ignoresOrder ignores succeeds member among asked plain unheld rightMember
          leftMember rightNamed leftNamed⟩
  · intro decides tables perm
    exact correspond_validateUnder_iff.mpr fun succeeds =>
      (issues_reordered perm distinct alike (decides succeeds)).symm

end Capabilities

/-! ## An example -/

namespace OrderExample

def column (name : String) : Column := { name, dataType := "integer" }

def users (schema columnName : String) : Table :=
  { name := "users", schema := some schema, columns := [column columnName] }

def pages : Table where
  name := "pages"
  columns := [{ column "author" with references := some ⟨.plain "users", "id", none, none⟩ }]

def numbered : Schema := { tables := [users "archive" "id", users "club" "id", pages] }

def coded : Schema := { tables := [users "archive" "id", users "club" "code", pages] }

/-- Pages of tenants under a name with the default schema, and shared ones under the bare name. -/
def doubled : Schema where
  tables :=
    [{ name := "pages", columns := [column "id"], platform := { tenant := some .shared } },
      { name := "pages", schema := some "public", columns := [column "id"],
        platform := { tenant := some .tenantScoped } }]

end OrderExample

open OrderExample in
/-- Pages refer to users that have numbers everywhere, in whatever order the tables stand. -/
theorem ignoresOrder_iff_pages :
    numbered.TablesDistinct ∧
      (Capabilities.postgres.dialect = .nile →
        numbered.ClassedAlike (TenancyPolicy.rule {}) Capabilities.postgres.defaultSchema) ∧
      numbered.DecidesTargets ∧
      Capabilities.postgres.IgnoresOrder (TenancyPolicy.rule {}) numbered := by
  have distinct : numbered.TablesDistinct := by decide
  have alike : Capabilities.postgres.dialect = .nile →
      numbered.ClassedAlike (TenancyPolicy.rule {}) Capabilities.postgres.defaultSchema := by
    intro nile
    cases nile
  have decides : numbered.DecidesTargets := by decide
  exact ⟨distinct, alike, decides,
    (Capabilities.ignoresOrder_iff distinct alike).mpr fun _ => decides⟩

open OrderExample in
/-- When only the users of the archive have numbers, pages may refer to them as long as the archive
stands before the club. On Nile, the class of the pages that stand last is that of all. -/
theorem not_ignoresOrder_pages :
    (coded.TablesDistinct ∧
        ¬Capabilities.postgres.IgnoresOrder (TenancyPolicy.rule {}) coded) ∧
      doubled.TablesDistinct ∧
        ¬Capabilities.nile.IgnoresOrder (TenancyPolicy.rule {}) doubled := by
  refine ⟨⟨by decide, fun ignores => ?_⟩, by decide, fun ignores => ?_⟩
  · have alike := ignores [users "club" "code", users "archive" "id", pages] (.swap _ _ _)
    have perm := Capabilities.correspond_validateUnder_iff.mp alike ⟨_, rfl⟩
    exact absurd perm.length_eq (by decide +kernel)
  · have alike := ignores doubled.tables.reverse (List.reverse_perm _)
    have perm := Capabilities.correspond_validateUnder_iff.mp alike ⟨_, rfl⟩
    exact absurd perm.length_eq (by decide +kernel)

end SchemaDdl
