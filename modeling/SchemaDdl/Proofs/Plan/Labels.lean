import SchemaDdl.Capability.BuiltIn
import SchemaDdl.Proofs.Plan.Objects
import SchemaDdl.Proofs.Sql.Reading

/-!
# Labels of enumeration types

A type whose old labels stand among the new ones in their order gets the others one by one, each at
the end or in front of a label that is there at that time. Read from their texts and run on the old
labels, the statements for the type end with the new ones. Of every other type that both versions
have, a plan warns and does nothing.
-/

namespace SchemaDdl

/-! ## Additions of labels -/

/-- A label that is put into a type, at the end or directly in front of another one. -/
structure LabelAddition where
  enumType : QualifiedName
  label : String
  before : Option String
deriving DecidableEq, Repr

namespace LabelAddition

/-- The addition that the text of a statement asks for, when it asks for nothing else. -/
def ofText? (family : Family) (text : List Char) : Option LabelAddition := do
  let rest ← Text.after? "ALTER TYPE ".toList text
  let (enumType, rest) ← Sql.readQualified? family rest
  let rest ← Text.after? " ADD VALUE ".toList rest
  let (label, rest) ← Sql.readLiteral? rest
  if rest.isEmpty then
    return { enumType, label, before := none }
  let rest ← Text.after? " BEFORE ".toList rest
  let (next, rest) ← Sql.readLiteral? rest
  if rest.isEmpty then return { enumType, label, before := some next } else none

def insertBefore? (next label : String) : List String → Option (List String)
  | [] => none
  | first :: others =>
      if first = next then some (label :: first :: others)
      else (insertBefore? next label others).map (first :: ·)

def extend? (labels : List String) (addition : LabelAddition) : Option (List String) :=
  if addition.label ∈ labels then none
  else match addition.before with
    | none => some (labels ++ [addition.label])
    | some next => insertBefore? next addition.label labels

def toType (defaultSchema : String) (enumType : QualifiedName) (additions : List LabelAddition) :
    List LabelAddition :=
  additions.filter (·.enumType.agrees defaultSchema enumType)

def extendAll? (labels : List String) (additions : List LabelAddition) : Option (List String) :=
  additions.foldlM extend? labels

end LabelAddition

def Statement.altersType (statement : Statement) : Bool :=
  statement.kind == .alter && statement.operation == .createType

def PlanWarning.relabelledType? : PlanWarning → Option String
  | .manualMigration object .relabelled => some object
  | _ => none

namespace MigrationPlan

/-- The additions that the statements of a plan ask for, unless one of those that change a type asks
for something else. -/
def labelAdditions? (family : Family) (plan : MigrationPlan) : Option (List LabelAddition) :=
  (plan.statements.filter (·.altersType)).mapM (LabelAddition.ofText? family ·.sql.toList)

/-- The types that a plan warns of, by their texts, since labels are gone or in another order. -/
def relabelledTypes (plan : MigrationPlan) : List String :=
  plan.warnings.filterMap PlanWarning.relabelledType?

end MigrationPlan

/-! ## Additions as texts -/

theorem LabelAddition.ofText?_addEnumLabelText (target : Target) (enumType : QualifiedName)
    (label : String) (before : Option String) :
    ofText? target.family (target.addEnumLabelText enumType label before).toList =
      some { enumType, label, before } := by
  have named (rest : List Char) : Sql.readQualified? target.family
      ((Sql.qualified target.family enumType).toList ++ (" ADD VALUE ".toList ++ rest)) =
        some (enumType, " ADD VALUE ".toList ++ rest) :=
    Sql.readQualified?_append enumType Sql.endsName_blank
  cases before with
  | none =>
      have shape : (target.addEnumLabelText enumType label none).toList =
          "ALTER TYPE ".toList ++ ((Sql.qualified target.family enumType).toList
            ++ (" ADD VALUE ".toList ++ (Sql.literal label).toList)) := by
        delta Target.addEnumLabelText
        simp only [Target.phraseIfSome, Target.qualified, toString,
          String.toList_append, String.toList_empty, List.append_assoc, List.append_nil]
      rw [shape, ofText?]
      simp only [Text.after?_append, named, Sql.readLiteral?_literal, Option.bind_eq_bind,
        Option.bind_some, List.isEmpty_nil, if_true]
      rfl
  | some next =>
      have shape : (target.addEnumLabelText enumType label (some next)).toList =
          "ALTER TYPE ".toList ++ ((Sql.qualified target.family enumType).toList
            ++ (" ADD VALUE ".toList ++ ((Sql.literal label).toList
              ++ (" BEFORE ".toList ++ (Sql.literal next).toList)))) := by
        delta Target.addEnumLabelText
        simp only [Target.phraseIfSome, Target.qualified, toString,
          String.toList_append, List.append_assoc]
      have written (rest : List Char) : Sql.readLiteral?
          ((Sql.literal label).toList ++ (" BEFORE ".toList ++ rest)) =
            some (label, " BEFORE ".toList ++ rest) :=
        Sql.readLiteral?_append label (by simp)
      have unfinished (rest : List Char) : (" BEFORE ".toList ++ rest).isEmpty = false := rfl
      rw [shape, ofText?]
      simp only [Text.after?_append, named, written, unfinished, Sql.readLiteral?_literal,
        Option.bind_eq_bind, Option.bind_some, List.isEmpty_nil, if_true, Bool.false_eq_true,
        if_false]
      rfl

/-! ## Additions in a row -/

namespace LabelAddition

variable {next label : String} {done kept : List String}

theorem insertBefore?_append (fresh : next ∉ done) :
    insertBefore? next label (done ++ next :: kept) = some (done ++ label :: next :: kept) := by
  induction done with
  | nil => simp [insertBefore?]
  | cons first done induction =>
      have other : first ≠ next := fun same => fresh (same ▸ List.mem_cons_self)
      have behind := induction fun member => fresh (List.mem_cons_of_mem _ member)
      simp [insertBefore?, other, behind]

theorem extend?_between (enumType : QualifiedName) (fresh : label ∉ done ++ kept)
    (apart : (done ++ kept).Nodup) :
    extend? (done ++ kept) ⟨enumType, label, kept.head?⟩ = some (done ++ label :: kept) := by
  cases kept with
  | nil => simp_all [extend?]
  | cons next kept =>
      have nextFresh : next ∉ done := fun member =>
        List.disjoint_of_nodup_append apart member List.mem_cons_self
      simp only [extend?, if_neg fresh, List.head?_cons, insertBefore?_append nextFresh]

end LabelAddition

def Action.labelAddition? : Action → Option LabelAddition
  | .addEnumLabel enumType label before => some { enumType, label, before }
  | _ => none

namespace SchemaChange

variable {name : QualifiedName} {held done labels : List String}

/-- What is done for a type up to some label has made the old labels into the new ones in front of
it and the old ones among the others. -/
theorem extendAll?_labelActions (distinct : (done ++ labels).Nodup) :
    LabelAddition.extendAll? (done ++ labels.filter held.contains)
        ((labelActions name held labels).filterMap Action.labelAddition?) =
      some (done ++ labels) := by
  induction labels generalizing done with
  | nil => simp [labelActions, LabelAddition.extendAll?]
  | cons label labels induction =>
      have moved : done ++ label :: labels = (done ++ [label]) ++ labels := by simp
      rw [moved] at distinct
      have others := induction distinct
      by_cases kept : held.contains label = true
      · rw [labelActions, if_pos kept, List.filter_cons_of_pos kept, moved, ← others]
        simp
      · -- The new labels behind this one are not there yet, so that its neighbour is the first of
        -- the old ones.
        have apart : (done ++ label :: labels.filter held.contains).Nodup := by
          simpa using distinct.sublist (List.filter_sublist.append_left (done ++ [label]))
        rcases List.nodup_cons.mp (List.nodup_middle.mp apart) with ⟨fresh, distinctBefore⟩
        have placed := LabelAddition.extend?_between name fresh distinctBefore
        rw [labelActions, if_neg kept, List.filter_cons_of_neg kept, moved, ← others,
          List.filterMap_cons]
        simp only [Action.labelAddition?, LabelAddition.extendAll?, List.foldlM_cons,
          ← List.head?_filter, placed, List.append_assoc, List.singleton_append]
        rfl

theorem filter_contains_eq_iff (distinct : labels.Nodup) :
    labels.filter held.contains = held ↔ held.Sublist labels := by
  constructor
  · intro same
    exact same ▸ List.filter_sublist
  · intro kept
    refine (distinct.perm_iff_eq_of_sublist List.filter_sublist kept).mp ?_
    refine (List.perm_ext_iff_of_nodup (distinct.filter _) (distinct.sublist kept)).mpr ?_
    intro label
    simpa using fun inside => kept.subset inside

theorem exists_of_mem_labelActions {action : Action}
    (member : action ∈ labelActions name held labels) :
    ∃ label before, action = .addEnumLabel name label before := by
  induction labels with
  | nil => cases member
  | cons label labels induction =>
      unfold labelActions at member
      split at member
      · exact induction member
      · rcases List.mem_cons.mp member with rfl | member
        · exact ⟨label, _, rfl⟩
        · exact induction member

/-! ## Types of both versions -/

section

variable {change : SchemaChange} {enumType old : EnumType}

theorem exists_of_mem_enumPlan {action : Action} (member : action ∈ (change.enumPlan enumType).1) :
    (action = .createEnum enumType ∧
        ∀ old ∈ change.old.enums, change.same old.name enumType.name = false) ∨
      ∃ label before, action = .addEnumLabel enumType.name label before := by
  unfold enumPlan at member
  split at member
  · rename_i missing
    refine .inl ⟨List.mem_singleton.mp member, fun old oldMember => ?_⟩
    simpa using List.find?_eq_none.mp missing old oldMember
  · split at member
    · cases member
    · split at member
      · exact .inr (exists_of_mem_labelActions member)
      · cases member

theorem enumType_of_mem_enumPlan {addition : LabelAddition}
    (member : addition ∈ (change.enumPlan enumType).1.filterMap Action.labelAddition?) :
    addition.enumType = enumType.name := by
  rcases List.mem_filterMap.mp member with ⟨action, planned, adds⟩
  rcases exists_of_mem_enumPlan planned with ⟨rfl, _⟩ | ⟨label, before, rfl⟩
  · cases adds
  · cases adds
    rfl

theorem relabelledType_of_mem_enumPlan {type : String}
    (member : type ∈ (change.enumPlan enumType).2.filterMap PlanWarning.relabelledType?) :
    type = enumType.name.text := by
  rcases List.mem_filterMap.mp member with ⟨warning, planned, found⟩
  unfold enumPlan at planned
  split at planned
  · cases planned
  · split at planned
    · cases planned
    · split at planned
      · cases planned
      · cases List.mem_singleton.mp planned
        cases found
        rfl

variable
  (present : change.old.enums.find? (fun old => change.same old.name enumType.name) = some old)
  (distinct : enumType.values.Nodup)

include present distinct

theorem extendAll?_enumPlan (kept : old.values.Sublist enumType.values) :
    LabelAddition.extendAll? old.values
        ((change.enumPlan enumType).1.filterMap Action.labelAddition?) = some enumType.values ∧
      (change.enumPlan enumType).2 = [] := by
  have ordered := (filter_contains_eq_iff distinct).mpr kept
  rw [enumPlan, present]
  dsimp only
  split
  · rename_i same
    rw [beq_iff_eq.mp same]
    exact ⟨rfl, rfl⟩
  · rw [if_pos (beq_iff_eq.mpr ordered)]
    have added := @extendAll?_labelActions enumType.name old.values [] enumType.values distinct
    rw [List.nil_append, ordered] at added
    exact ⟨added, rfl⟩

theorem enumPlan_of_not_sublist (lost : ¬old.values.Sublist enumType.values) :
    change.enumPlan enumType = ([], [.manualMigration enumType.name.text .relabelled]) := by
  have disordered := fun ordered => lost ((filter_contains_eq_iff distinct).mp ordered)
  have different : ¬(old.values == enumType.values) = true := fun same =>
    lost (beq_iff_eq.mp same ▸ List.Sublist.refl _)
  rw [enumPlan, present]
  dsimp only
  rw [if_neg different, if_neg fun same => disordered (beq_iff_eq.mp same)]

theorem filterMap_relabelledType?_enumPlan :
    (change.enumPlan enumType).2.filterMap PlanWarning.relabelledType? =
      if old.values.Sublist enumType.values then [] else [enumType.name.text] := by
  split
  · rw [(extendAll?_enumPlan present distinct ‹_›).2]
    rfl
  · rw [enumPlan_of_not_sublist present distinct ‹_›]
    rfl

end

end SchemaChange

/-! ## Whole plans -/

theorem filter_flatMap_split {α β : Type} {holds : α → Bool} {items : β → List α}
    {before after : List β} {owner : β} (own : ∀ item ∈ items owner, holds item = true)
    (others : ∀ other ∈ before ++ after, ∀ item ∈ items other, holds item = false) :
    ((before ++ owner :: after).flatMap items).filter holds = items owner := by
  have empty (owners : List β) (among : ∀ other ∈ owners, other ∈ before ++ after) :
      (owners.flatMap items).filter holds = [] := by
    refine List.filter_eq_nil_iff.mpr fun item member => ?_
    rcases List.mem_flatMap.mp member with ⟨other, otherMember, itemMember⟩
    simp [others other (among other otherMember) item itemMember]
  rw [List.flatMap_append, List.flatMap_cons, List.filter_append, List.filter_append,
    empty before fun _ => List.mem_append_left _, empty after fun _ => List.mem_append_right _,
    List.filter_eq_self.mpr own, List.nil_append, List.append_nil]

theorem Action.operation_of_labelAddition? {action : Action} {addition : LabelAddition}
    (adds : action.labelAddition? = some addition) :
    action.kind = .alter ∧ action.operation = .createType := by
  unfold labelAddition? at adds
  split at adds
  · exact ⟨rfl, rfl⟩
  · cases adds

theorem Action.filterMap_labelAddition?_eq_nil {actions : List Action}
    (others : ∀ action ∈ actions, action.operation ≠ .createType) :
    actions.filterMap labelAddition? = [] := by
  refine List.filterMap_eq_nil_iff.mpr fun action member => ?_
  cases adds : action.labelAddition? with
  | none => rfl
  | some addition => exact absurd (operation_of_labelAddition? adds).2 (others action member)

namespace SchemaChange

variable {change : SchemaChange} {capabilities : Capabilities} {comments : Bool}

theorem filterMap_labelAddition?_orderedActions :
    (orderedActions (change.steps capabilities comments)).filterMap Action.labelAddition? =
      change.new.enums.flatMap fun enumType =>
        (change.enumPlan enumType).1.filterMap Action.labelAddition? := by
  have later : ∀ phase, Phase.creation ≠ phase →
      (actionsIn phase (change.steps capabilities comments)).filterMap Action.labelAddition? = [] :=
    fun _ other => Action.filterMap_labelAddition?_eq_nil
      (operation_ne_of_mem_actionsIn .createType (.inl rfl) other)
  have extensions :
      (change.extensionSteps.map (·.action)).filterMap Action.labelAddition? = [] := by
    simp [extensionSteps, PlanStep.routed, Action.labelAddition?, Function.comp_def]
  have sequences : (change.sequenceSteps.map (·.action)).filterMap Action.labelAddition? = [] := by
    refine Action.filterMap_labelAddition?_eq_nil (List.forall_mem_map.mpr fun step member => ?_)
    rcases of_mem_standingSteps member with ⟨sequence, _, rfl⟩
    simp [PlanStep.routed, Action.operation]
  have tables :
      (change.creationOrder.map Action.createTable).filterMap Action.labelAddition? = [] :=
    Action.filterMap_labelAddition?_eq_nil
      (List.forall_mem_map.mpr fun _ _ => by simp [Action.operation])
  have enums : change.enumSteps.map (·.action) =
      change.new.enums.flatMap fun enumType => (change.enumPlan enumType).1 := by
    simp [enumSteps, List.map_flatMap, PlanStep.routed, Function.comp_def]
  rw [orderedActions_eq]
  simp only [List.filterMap_append]
  rw [later .addition (by decide), later .modification (by decide), later .removal (by decide),
    later .tableRemoval (by decide), actionsIn_steps]
  simp only [leadingSteps, List.map_append, List.filterMap_append, extensions, sequences, tables,
    enums, List.filterMap_flatMap, List.nil_append, List.append_nil]

theorem filterMap_relabelledType?_warnings :
    change.warnings.filterMap PlanWarning.relabelledType? =
      change.new.enums.flatMap fun enumType =>
        (change.enumPlan enumType).2.filterMap PlanWarning.relabelledType? := by
  have sequences : change.sequenceWarnings.filterMap PlanWarning.relabelledType? = [] := by
    refine List.filterMap_eq_nil_iff.mpr fun warning member => ?_
    rcases of_mem_standingWarnings member with ⟨sequence, _, rfl⟩
    rfl
  have cycles : change.cycleWarnings.filterMap PlanWarning.relabelledType? = [] := by
    unfold cycleWarnings
    split <;> rfl
  have columns : (change.keptTables.flatMap (·.renameWarnings)).filterMap
      PlanWarning.relabelledType? = [] := by
    simp [List.filterMap_flatMap, TableChange.renameWarnings, PlanWarning.relabelledType?,
      Function.comp_def]
  have rules : (change.changeWarnings ++ change.removalWarnings).filterMap
      PlanWarning.relabelledType? = [] := by
    refine List.filterMap_eq_nil_iff.mpr fun warning member => ?_
    unfold PlanWarning.relabelledType?
    split
    · have other := operation_of_mem_ruleWarnings member
      exact absurd other (by decide)
    · rfl
  rw [List.filterMap_append] at rules
  simp only [warnings, List.filterMap_append, List.append_assoc, rules, sequences, cycles, columns]
  simp [enumWarnings, List.filterMap_flatMap, PlanWarning.relabelledType?, Function.comp_def]

end SchemaChange

/-- What a plan does for the labels of a type that both versions have. Read from its text, every
statement that changes a type adds a label. Those for the type run on its old labels, where none may
be added that is there, and end with the new labels; or there are none of them, and the plan warns
of the type. All other warnings of labels are about other types, and so are the types that are new.
-/
structure MigrationPlan.Relabels (plan : MigrationPlan) (target : Target) (new : Schema)
    (held enumType : EnumType) (additions : List LabelAddition) : Prop where
  read : plan.labelAdditions? target.family = some additions
  kept : held.values.Sublist enumType.values → LabelAddition.extendAll? held.values
      (LabelAddition.toType target.capabilities.defaultSchema enumType.name additions) =
    some enumType.values
  lost : ¬held.values.Sublist enumType.values →
    LabelAddition.toType target.capabilities.defaultSchema enumType.name additions = []
  warned : ∃ front back, plan.relabelledTypes =
      front ++ (if held.values.Sublist enumType.values then [] else [enumType.name.text]) ++ back ∧
    ∀ type ∈ front ++ back, ∃ other ∈ new.enums, type = other.name.text ∧
      other.name.agrees target.capabilities.defaultSchema enumType.name = false
  created : ∀ statement ∈ plan.statements, statement.operation = .createType →
    statement.altersType = false → ∃ other ∈ new.enums,
      other.name.agrees target.capabilities.defaultSchema enumType.name = false ∧
        target.statement (.createEnum other) = .ok statement

namespace Target

variable {target : Target} {old new : Schema} {plan : MigrationPlan}

theorem ofText?_of_statement {action : Action} {statement : Statement}
    (done : target.statement action = .ok statement) :
    (action.labelAddition? = none ∧ statement.altersType = false) ∨
      ∃ addition, action.labelAddition? = some addition ∧ statement.altersType = true ∧
        LabelAddition.ofText? target.family statement.sql.toList = some addition := by
  rcases statement_eq_ok_iff.mp done with ⟨sql, textOk, rfl⟩
  cases action with
  | addEnumLabel enumType label before =>
      cases textOk
      exact .inr ⟨_, rfl, rfl, LabelAddition.ofText?_addEnumLabelText target enumType label before⟩
  | _ => exact .inl ⟨rfl, rfl⟩

theorem mapM_ofText?_of_statements {actions : List Action} {written : List Statement}
    (done : target.statements actions = .ok written) :
    (written.filter (·.altersType)).mapM (LabelAddition.ofText? target.family ·.sql.toList) =
      some (actions.filterMap Action.labelAddition?) := by
  rw [statements_eq_ok_iff] at done
  induction done with
  | nil => rfl
  | cons done _ induction =>
      rcases ofText?_of_statement done with ⟨silent, other⟩ | ⟨addition, adds, alters, read⟩
      · rw [List.filter_cons_of_neg (Bool.eq_false_iff.mp other), induction,
          List.filterMap_cons_none silent]
      · rw [List.filter_cons_of_pos alters, List.mapM_cons, read, induction,
          List.filterMap_cons_some adds]
        rfl

theorem exists_enum_of_plan (planned : target.plan old new = .ok plan) {statement : Statement}
    (member : statement ∈ plan.statements) (ofType : statement.operation = .createType)
    (created : statement.altersType = false) :
    ∃ enumType ∈ new.enums, target.statement (.createEnum enumType) = .ok statement ∧
      ∀ held ∈ old.enums,
        held.name.agrees target.capabilities.defaultSchema enumType.name = false := by
  rcases exists_action_of_plan planned member with ⟨action, actionMember, written⟩
  have own : action.operation = .createType := (operation_of_statement written).symm.trans ofType
  rcases SchemaChange.exists_leadingStep actionMember (by simp [own]) with ⟨step, stepMember, rfl⟩
  rcases SchemaChange.action_of_mem_leadingSteps stepMember with
    ⟨extension, _, _, equal⟩ | ⟨enumType, enumMember, planned⟩ | ⟨sequence, _, equal⟩
  · rw [equal] at own
    cases own
  · rcases SchemaChange.exists_of_mem_enumPlan planned with ⟨equal, new⟩ | ⟨label, next, equal⟩
    · rw [equal] at written
      exact ⟨enumType, enumMember, written, new⟩
    · rw [equal] at written
      rcases statement_eq_ok_iff.mp written with ⟨sql, _, rfl⟩
      cases created
  · rw [equal] at own
    cases own

section

variable {enumType : EnumType}
  (apart : NamedApart target.capabilities.defaultSchema EnumType.name new.enums)
  (member : enumType ∈ new.enums)

include apart member

theorem toType_orderedActions :
    LabelAddition.toType target.capabilities.defaultSchema enumType.name
        ((target.orderedActions old new).filterMap Action.labelAddition?) =
      ((target.schemaChange old new).enumPlan enumType).1.filterMap Action.labelAddition? := by
  rcases apart.exists_split matches_names.symm member with ⟨before, after, place, others⟩
  have enums : (target.schemaChange old new).new.enums = before ++ enumType :: after := place
  rw [orderedActions, SchemaChange.filterMap_labelAddition?_orderedActions, enums]
  refine filter_flatMap_split (fun addition planned => ?_) fun other member addition planned => ?_
  · rw [SchemaChange.enumType_of_mem_enumPlan planned]
    exact QualifiedName.agrees_self _
  · rw [SchemaChange.enumType_of_mem_enumPlan planned]
    exact others other member

theorem exists_relabelledTypes_of_plan (planned : target.plan old new = .ok plan) :
    ∃ front back, plan.relabelledTypes = front
        ++ ((target.schemaChange old new).enumPlan enumType).2.filterMap PlanWarning.relabelledType?
        ++ back ∧
      ∀ type ∈ front ++ back, ∃ other ∈ new.enums, type = other.name.text ∧
        other.name.agrees target.capabilities.defaultSchema enumType.name = false := by
  rcases apart.exists_split matches_names.symm member with ⟨before, after, place, others⟩
  have enums : (target.schemaChange old new).new.enums = before ++ enumType :: after := place
  rw [MigrationPlan.relabelledTypes, ← (plan_eq_ok_iff.mp planned).2,
    SchemaChange.filterMap_relabelledType?_warnings, enums]
  refine ⟨_, _, by rw [List.flatMap_append, List.flatMap_cons, List.append_assoc], ?_⟩
  intro type warned
  rw [← List.flatMap_append] at warned
  rcases List.mem_flatMap.mp warned with ⟨other, otherMember, warned⟩
  have listed : other ∈ new.enums := by
    rw [place]
    exact ((List.sublist_cons_self enumType after).append_left before).subset otherMember
  exact ⟨other, listed, SchemaChange.relabelledType_of_mem_enumPlan warned,
    others other otherMember⟩

end

theorem exists_other_of_created (planned : target.plan old new = .ok plan)
    {held enumType : EnumType} (present : old.enums.find?
      (·.name.agrees target.capabilities.defaultSchema enumType.name) = some held)
    {statement : Statement} (member : statement ∈ plan.statements)
    (ofType : statement.operation = .createType) (created : statement.altersType = false) :
    ∃ other ∈ new.enums,
      other.name.agrees target.capabilities.defaultSchema enumType.name = false ∧
        target.statement (.createEnum other) = .ok statement := by
  rcases exists_enum_of_plan planned member ofType created with ⟨other, otherMember, written, new⟩
  refine ⟨other, otherMember, Bool.eq_false_iff.mpr fun same => ?_, written⟩
  -- A type that agreed with this one would agree with its old version too.
  have heldSame := List.find?_some present
  have agrees := QualifiedName.agrees_trans heldSame (QualifiedName.agrees_symm same)
  exact Bool.eq_false_iff.mp (new held (List.mem_of_find?_eq_some present)) agrees

/-- A plan turns the labels of a type that both versions have into the new ones, where they are told
apart and the old ones keep their order, and otherwise leaves the type to its reader. The new
version names every type once. -/
theorem plan_relabels (planned : target.plan old new = .ok plan) {held enumType : EnumType}
    (apart : NamedApart target.capabilities.defaultSchema EnumType.name new.enums)
    (member : enumType ∈ new.enums)
    (present : old.enums.find?
      (·.name.agrees target.capabilities.defaultSchema enumType.name) = some held)
    (distinct : enumType.values.Nodup) :
    ∃ additions, plan.Relabels target new held enumType additions := by
  have found : (target.schemaChange old new).old.enums.find?
      (fun other => (target.schemaChange old new).same other.name enumType.name) = some held :=
    present
  have own := @toType_orderedActions target old new enumType apart member
  refine ⟨_, mapM_ofText?_of_statements (plan_eq_ok_iff.mp planned).1, ?_, ?_, ?_, ?_⟩
  · intro kept
    rw [own]
    exact (SchemaChange.extendAll?_enumPlan found distinct kept).1
  · intro lost
    rw [own, SchemaChange.enumPlan_of_not_sublist found distinct lost]
    rfl
  · rw [← SchemaChange.filterMap_relabelledType?_enumPlan found distinct]
    exact exists_relabelledTypes_of_plan apart member planned
  · exact fun statement => exists_other_of_created planned present

end Target

/-! ## An example -/

namespace LabelExample

def mood (values : List String) : EnumType := { name := .plain "mood", values }

def publicMood (values : List String) : EnumType :=
  { name := { schema := some "public", name := "mood" }, values }

def size (values : List String) : EnumType := { name := .plain "size", values }

def old : Schema := { enums := [mood ["sad", "happy"], size ["small", "large"]] }

/-- One type gets labels in two places, and the labels of the other change their order. -/
def new : Schema :=
  { enums := [size ["large", "small"], mood ["sad", "ok", "fine", "happy", "ecstatic"]] }

end LabelExample

open LabelExample in
theorem plan_relabels_mood :
    NamedApart Capabilities.postgres.defaultSchema EnumType.name new.enums ∧
      mood ["sad", "ok", "fine", "happy", "ecstatic"] ∈ new.enums ∧
      old.enums.find? (·.name.agrees Capabilities.postgres.defaultSchema (.plain "mood")) =
        some (mood ["sad", "happy"]) ∧
      (mood ["sad", "ok", "fine", "happy", "ecstatic"]).values.Nodup ∧
      ∃ plan, Target.plan ⟨Capabilities.postgres, {}⟩ old new = .ok plan ∧
        ∃ additions, plan.Relabels ⟨Capabilities.postgres, {}⟩ new (mood ["sad", "happy"])
          (mood ["sad", "ok", "fine", "happy", "ecstatic"]) additions := by
  have planned : ∃ plan, Target.plan ⟨Capabilities.postgres, {}⟩ old new = .ok plan := by
    decide +kernel
  rcases planned with ⟨plan, planned⟩
  have apart : NamedApart Capabilities.postgres.defaultSchema EnumType.name new.enums := by
    decide +kernel
  have member : mood ["sad", "ok", "fine", "happy", "ecstatic"] ∈ new.enums :=
    List.mem_cons_of_mem _ List.mem_cons_self
  have present : old.enums.find?
      (·.name.agrees Capabilities.postgres.defaultSchema (.plain "mood")) =
        some (mood ["sad", "happy"]) := by decide +kernel
  have distinct : (mood ["sad", "ok", "fine", "happy", "ecstatic"]).values.Nodup := by decide
  exact ⟨apart, member, present, distinct, plan, planned,
    Target.plan_relabels planned apart member present distinct⟩

open LabelExample in
theorem plan_relabels_twice_mood :
    let twice : List LabelAddition :=
      [⟨.plain "mood", "ok", none⟩, ⟨⟨some "public", "mood"⟩, "ok", none⟩]
    (mood ["sad", "ok"]).values.Nodup ∧ (publicMood ["sad", "ok"]).values.Nodup ∧
      ["sad"].Sublist ["sad", "ok"] ∧
      ∃ plan, Target.plan ⟨Capabilities.postgres, {}⟩ { enums := [mood ["sad"]] }
          { enums := [mood ["sad", "ok"], publicMood ["sad", "ok"]] } = .ok plan ∧
        plan.labelAdditions? .postgres = some twice ∧
        LabelAddition.toType Capabilities.postgres.defaultSchema (.plain "mood") twice = twice ∧
        LabelAddition.extendAll? ["sad"] twice = none := by
  decide +kernel

end SchemaDdl
