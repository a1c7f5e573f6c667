import SchemaDdl.Capability.BuiltIn
import SchemaDdl.Proofs.Plan.Parts
import SchemaDdl.Proofs.Schema.Name
import SchemaDdl.Proofs.Writing.Schema

/-!
# Planning from nothing

The plan from an empty schema does what creating the schema at once does, in the same order, but
for the statements that give sequences to the columns that own them. Creation goes kind by kind and
a plan table by table, and each keeps its own account of the tables that are secured; the phases and
the texts of names bring the two together.
-/

namespace SchemaDdl

/-! ## Actions that give sequences away -/

/-- Whether a statement gives a sequence to a column that owns it: no other statement alters a
sequence. -/
def Statement.givesSequence (statement : Statement) : Bool :=
  statement.kind == .alter && statement.operation == .createSequence

def Action.givesSequence (action : Action) : Bool :=
  action.kind == .alter && action.operation == .createSequence

theorem Action.givesSequence_iff {action : Action} :
    action.givesSequence = true ↔ ∃ sequence owner, action = .ownSequence sequence owner := by
  constructor
  · intro gives
    cases action <;> first | exact ⟨_, _, rfl⟩ | cases gives
  · intro holds
    rcases holds with ⟨sequence, owner, rfl⟩
    rfl

theorem Target.givesSequence_of_statement {target : Target} {action : Action}
    {statement : Statement} (done : target.statement action = .ok statement) :
    statement.givesSequence = action.givesSequence := by
  rcases statement_eq_ok_iff.mp done with ⟨sql, _, rfl⟩
  rfl

/-! ## Policies of a new schema -/

theorem of_mem_policyActions {action : Action} {secured : List QualifiedName}
    {policies : List Policy} (member : action ∈ policyActions secured policies) :
    (∃ table, action = .enableRowLevelSecurity table) ∨
      ∃ policy, action = .createPolicy policy := by
  induction policies generalizing secured with
  | nil => cases member
  | cons policy policies induction =>
      unfold policyActions at member
      split at member
      · rcases List.mem_cons.mp member with rfl | member
        · exact .inr ⟨policy, rfl⟩
        · exact induction member
      · rcases List.mem_cons.mp member with rfl | member
        · exact .inl ⟨policy.table, rfl⟩
        · rcases List.mem_cons.mp member with rfl | member
          · exact .inr ⟨policy, rfl⟩
          · exact induction member

namespace SchemaChange

variable {schema : Schema} {defaultSchema : String}

def fromNothing (schema : Schema) (defaultSchema : String) : SchemaChange :=
  ⟨{}, schema, defaultSchema⟩

theorem securingActions_fromNothing (secured : List QualifiedName) (policies : List Policy)
    (securedRead : ∀ table ∈ secured, table.FromText)
    (read : ∀ policy ∈ policies, policy.table.FromText) :
    (fromNothing schema defaultSchema).securingActions (secured.map (·.text)) policies =
      policyActions secured policies := by
  induction policies generalizing secured with
  | nil => rfl
  | cons policy policies induction =>
      have policyRead := read policy List.mem_cons_self
      have othersRead : ∀ policy ∈ policies, policy.table.FromText := fun other member =>
        read other (List.mem_cons_of_mem _ member)
      have known : (secured.map (·.text)).contains policy.table.text =
          secured.contains policy.table := by
        rw [Bool.eq_iff_iff, List.contains_iff_mem, List.contains_iff_mem, List.mem_map]
        constructor
        · intro holds
          rcases holds with ⟨table, member, same⟩
          exact ((securedRead table member).text_inj policyRead).mp same ▸ member
        · exact fun member => ⟨policy.table, member, rfl⟩
      have unsecured : (fromNothing schema defaultSchema).isSecured policy.table = false := rfl
      unfold securingActions policyActions
      rw [unsecured, Bool.false_or, known]
      split
      · rw [induction secured securedRead othersRead]
      · have named := induction (policy.table :: secured)
          (List.forall_mem_cons.mpr ⟨policyRead, securedRead⟩) othersRead
        rw [List.map_cons] at named
        rw [named]

theorem map_standingSteps_fromNothing {α : Type} [BEq α] (means : α → α → Bool)
    (create : α → Action) (objects : List α) :
    (objects.flatMap fun object => (Standing.among [] (means object) object).steps
      (create object)).map (·.action) = objects.map create := by
  rw [List.map_flatMap, List.map_eq_flatMap]
  rfl

theorem leadingSteps_fromNothing :
    (fromNothing schema defaultSchema).leadingSteps.map (·.action) =
      schema.extensions.map Action.createExtension ++ schema.enums.map .createEnum
        ++ schema.sequences.map .createSequence := by
  have extensions : (schema.extensions.filter fun extension =>
      !(fromNothing schema defaultSchema).old.extensions.any (·.name == extension.name)) =
        schema.extensions := List.filter_eq_self.mpr fun _ _ => rfl
  have enums : (fromNothing schema defaultSchema).enumSteps.map (·.action) =
      schema.enums.map .createEnum := by
    rw [enumSteps, List.map_flatMap, List.map_eq_flatMap]
    rfl
  have sequences : (fromNothing schema defaultSchema).sequenceSteps.map (·.action) =
      schema.sequences.map .createSequence := map_standingSteps_fromNothing ..
  rw [leadingSteps, List.map_append, List.map_append, enums, sequences, extensionSteps,
    List.map_map]
  exact congrArg (fun extensions => extensions.map Action.createExtension ++ _ ++ _) extensions

theorem trailingSteps_fromNothing (read : ∀ policy ∈ schema.policies, policy.table.FromText) :
    (fromNothing schema defaultSchema).trailingSteps.map (·.action) =
      schema.views.map Action.createView ++ schema.functions.map .createFunction
        ++ schema.triggers.map .createTrigger ++ policyActions [] schema.policies := by
  have views : (fromNothing schema defaultSchema).viewSteps.map (·.action) =
      schema.views.map .createView := map_standingSteps_fromNothing ..
  have functions : (fromNothing schema defaultSchema).functionSteps.map (·.action) =
      schema.functions.map .createFunction := map_standingSteps_fromNothing ..
  have triggers : (fromNothing schema defaultSchema).triggerSteps.map (·.action) =
      schema.triggers.map .createTrigger := map_standingSteps_fromNothing ..
  have policies : (fromNothing schema defaultSchema).policySteps.map (·.action) =
      policyActions [] schema.policies := by
    have added : (fromNothing schema defaultSchema).addedPolicies = schema.policies :=
      List.filter_eq_self.mpr fun _ _ => rfl
    rw [policySteps, added, List.map_map]
    exact (List.map_id _).trans
      (securingActions_fromNothing [] schema.policies (List.forall_mem_nil _) read)
  simp only [trailingSteps, List.map_append, views, functions, triggers, policies]

theorem creationOrder_fromNothing :
    (fromNothing schema defaultSchema).creationOrder =
      inDependencyOrder defaultSchema schema.tables := by
  have created : (fromNothing schema defaultSchema).createdTables = schema.tables :=
    List.filter_eq_self.mpr fun _ _ => rfl
  rw [creationOrder, created]
  rfl

theorem keptActions_fromNothing {capabilities : Capabilities} {comments : Bool} {phase : Phase} :
    (fromNothing schema defaultSchema).keptActions capabilities comments phase = [] := by
  have kept : (fromNothing schema defaultSchema).keptTables = [] :=
    List.filterMap_eq_nil_iff.mpr fun _ _ => rfl
  rw [keptActions, kept]
  rfl

end SchemaChange

/-! ## Schemas created at once -/

namespace Schema

variable {schema : Schema} {capabilities : Capabilities} {comments : Bool} {action : Action}

def leadingActions (schema : Schema) (capabilities : Capabilities) : List Action :=
  schema.extensions.map Action.createExtension ++ schema.enums.map .createEnum
    ++ schema.sequences.map .createSequence
    ++ (inDependencyOrder capabilities.defaultSchema schema.tables).map .createTable

def trailingActions (schema : Schema) (capabilities : Capabilities) (comments : Bool) :
    List Action :=
  let tables := inDependencyOrder capabilities.defaultSchema schema.tables
  (tables.flatMap (·.indexes)).map Action.createIndex
    ++ (tables.flatMap (Table.completion capabilities comments) ++ schema.views.map .createView
      ++ schema.functions.map .createFunction ++ schema.triggers.map .createTrigger
      ++ policyActions [] schema.policies)

theorem creation_eq :
    schema.creation capabilities comments =
      schema.leadingActions capabilities ++ schema.ownershipActions
        ++ schema.trailingActions capabilities comments := by
  simp only [creation, leadingActions, trailingActions, List.append_assoc]

theorem givesSequence_of_mem_ownershipActions (member : action ∈ schema.ownershipActions) :
    action.givesSequence = true := by
  rcases List.mem_filterMap.mp member with ⟨sequence, _, found⟩
  rcases Option.map_eq_some_iff.mp found with ⟨owner, _, rfl⟩
  rfl

theorem givesSequence_of_mem_leadingActions :
    ∀ action ∈ schema.leadingActions capabilities, action.givesSequence = false := by
  simp only [leadingActions, List.forall_mem_append, List.forall_mem_map]
  exact ⟨⟨⟨fun _ _ => rfl, fun _ _ => rfl⟩, fun _ _ => rfl⟩, fun _ _ => rfl⟩

theorem givesSequence_of_mem_trailingActions :
    ∀ action ∈ schema.trailingActions capabilities comments, action.givesSequence = false := by
  have completed : ∀ action ∈ (inDependencyOrder capabilities.defaultSchema schema.tables).flatMap
      (Table.completion capabilities comments), action.givesSequence = false := by
    intro action member
    rcases List.mem_flatMap.mp member with ⟨table, _, member⟩
    rcases Table.of_mem_completion member with ⟨_, rfl⟩ | ⟨_, rfl⟩ | ⟨_, _, rfl⟩ <;> rfl
  have secured : ∀ action ∈ policyActions [] schema.policies, action.givesSequence = false := by
    intro action member
    rcases of_mem_policyActions member with ⟨_, rfl⟩ | ⟨_, rfl⟩ <;> rfl
  simp only [trailingActions, List.forall_mem_append, List.forall_mem_map]
  exact ⟨fun _ _ => rfl, ⟨⟨⟨completed, fun _ _ => rfl⟩, fun _ _ => rfl⟩, fun _ _ => rfl⟩, secured⟩

theorem filter_givesSequence_creation :
    (schema.creation capabilities comments).filter (·.givesSequence) = schema.ownershipActions := by
  have leading : (schema.leadingActions capabilities).filter (·.givesSequence) = [] :=
    List.filter_eq_nil_iff.mpr fun action member => by
      simp [givesSequence_of_mem_leadingActions action member]
  have trailing : (schema.trailingActions capabilities comments).filter (·.givesSequence) = [] :=
    List.filter_eq_nil_iff.mpr fun action member => by
      simp [givesSequence_of_mem_trailingActions action member]
  have ownership : schema.ownershipActions.filter (·.givesSequence) = schema.ownershipActions :=
    List.filter_eq_self.mpr fun _ => givesSequence_of_mem_ownershipActions
  rw [creation_eq, List.filter_append, List.filter_append, leading, ownership, trailing,
    List.nil_append, List.append_nil]

theorem filter_not_givesSequence_creation :
    (schema.creation capabilities comments).filter (!·.givesSequence) =
      schema.leadingActions capabilities ++ schema.trailingActions capabilities comments := by
  have leading : (schema.leadingActions capabilities).filter (!·.givesSequence) =
      schema.leadingActions capabilities :=
    List.filter_eq_self.mpr fun action member => by
      simp [givesSequence_of_mem_leadingActions action member]
  have trailing : (schema.trailingActions capabilities comments).filter (!·.givesSequence) =
      schema.trailingActions capabilities comments :=
    List.filter_eq_self.mpr fun action member => by
      simp [givesSequence_of_mem_trailingActions action member]
  have ownership : schema.ownershipActions.filter (!·.givesSequence) = [] :=
    List.filter_eq_nil_iff.mpr fun action member => by
      simp [givesSequence_of_mem_ownershipActions member]
  rw [creation_eq, List.filter_append, List.filter_append, leading, ownership, trailing,
    List.append_nil]

end Schema

/-! ## Plans from nothing -/

namespace Target

variable {target : Target} {schema : Schema} {plan : MigrationPlan} {statements : List Statement}

theorem orderedActions_fromNothing (read : ∀ policy ∈ schema.policies, policy.table.FromText) :
    target.orderedActions {} schema =
      schema.leadingActions target.capabilities
        ++ schema.trailingActions target.capabilities target.options.comments := by
  have change : target.schemaChange {} schema =
      SchemaChange.fromNothing schema target.capabilities.defaultSchema := rfl
  have dropped :
      (SchemaChange.fromNothing schema target.capabilities.defaultSchema).dropOrder = [] := rfl
  rw [orderedActions, orderedActions_eq, change]
  simp only [SchemaChange.actionsIn_steps, SchemaChange.leadingSteps_fromNothing,
    SchemaChange.trailingSteps_fromNothing read, SchemaChange.creationOrder_fromNothing,
    SchemaChange.keptActions_fromNothing, dropped, Schema.leadingActions, Schema.trailingActions,
    List.map_nil, List.append_nil, List.append_assoc]

/-- A schema can be planned from nothing exactly when it can be created at once. The plan then holds
the statements of its creation, in their order, without those that give sequences away. -/
theorem plan_from_nothing (read : ∀ policy ∈ schema.policies, policy.table.FromText) :
    (Succeeds (target.plan {} schema) ↔ Succeeds (target.createSchema schema)) ∧
    ∀ plan statements, target.plan {} schema = .ok plan →
      target.createSchema schema = .ok statements →
        plan.statements = statements.filter (!·.givesSequence) ∧
          target.statements schema.ownershipActions =
            .ok (statements.filter (·.givesSequence)) := by
  constructor
  · have ownership : ∀ action ∈ schema.ownershipActions, Succeeds (target.actionText action) := by
      intro action member
      rcases Action.givesSequence_iff.mp (Schema.givesSequence_of_mem_ownershipActions member) with
        ⟨sequence, owner, rfl⟩
      exact succeeds_ok _
    rw [succeeds_plan, orderedActions_fromNothing read, createSchema, Schema.creation_eq]
    simp only [succeeds_statements, List.forall_mem_append]
    rw [and_iff_left ownership]
  · intro plan statements planned created
    have written := (plan_eq_ok_iff.mp planned).1
    have others := statements_filter
      (fun action statement done => congrArg (!·) (givesSequence_of_statement done)) created
    have given := statements_filter
      (fun action statement done => givesSequence_of_statement done) created
    rw [Schema.filter_not_givesSequence_creation, ← orderedActions_fromNothing read, written]
      at others
    rw [Schema.filter_givesSequence_creation] at given
    exact ⟨Except.ok.inj others, given⟩

end Target

/-! ## An example -/

namespace CreationExample

def pageIds : Sequence := { name := .plain "page_ids", ownedBy := some "pages.id" }

def pages : Table where
  name := "pages"
  columns := [{ name := "id", dataType := "integer" }]
  indexes := [{ name := "pages_id", table := .plain "pages", keys := [{ target := .column "id" }] }]
  comment := some "Pages of the site"

def readers : Policy :=
  { name := "readers", table := .ofText "public.pages", visible := some "true" }

def writers : Policy := { readers with name := "writers", writable := some "true" }

def schema : Schema :=
  { tables := [pages], sequences := [pageIds], policies := [readers, writers] }

end CreationExample

open CreationExample in
/-- The table is secured once, and the sequence is not given away. -/
theorem plan_from_nothing_pages :
    (∀ policy ∈ schema.policies, policy.table.FromText) ∧
      ∃ plan statements,
        Target.plan ⟨Capabilities.postgres, { comments := true }⟩ {} schema = .ok plan ∧
        Target.createSchema ⟨Capabilities.postgres, { comments := true }⟩ schema = .ok statements ∧
        plan.statements = statements.filter (!·.givesSequence) ∧
        plan.statements.map (·.operation) =
          [.createSequence, .createTable, .createIndex, .comment, .createPolicy, .createPolicy,
            .createPolicy] ∧
        statements.length = 8 := by
  have read : ∀ policy ∈ schema.policies, policy.table.FromText :=
    List.forall_mem_cons.mpr
      ⟨⟨"public.pages", rfl⟩, List.forall_mem_singleton.mpr ⟨"public.pages", rfl⟩⟩
  have succeeds : ∃ statements,
      Target.createSchema ⟨Capabilities.postgres, { comments := true }⟩ schema = .ok statements ∧
        (statements.filter (!·.givesSequence)).map (·.operation) =
          [.createSequence, .createTable, .createIndex, .comment, .createPolicy, .createPolicy,
            .createPolicy] ∧
        statements.length = 8 := by
    decide +kernel
  rcases succeeds with ⟨statements, created, operations, length⟩
  rcases Target.plan_from_nothing read with ⟨together, equal⟩
  rcases together.mpr ⟨statements, created⟩ with ⟨plan, planned⟩
  have same := (equal plan statements planned created).1
  exact ⟨read, plan, statements, planned, created, same, same ▸ operations, length⟩

end SchemaDdl
