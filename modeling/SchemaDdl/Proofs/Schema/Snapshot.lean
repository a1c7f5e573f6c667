import SchemaDdl.Proofs.Json.Codec
import SchemaDdl.Proofs.Json.Reading
import SchemaDdl.Proofs.Schema.Name

/-!
# Snapshots are read back

A schema that was read from a text is written as a snapshot from which the same schema is read. Each
type of the model is decoded faithfully, by the members that it writes and the defaults of those
that it leaves out; the names of the model are texts again, and JSON literals were settled when they
were read. The text of the snapshot is read by `Json.read_compact`.
-/

namespace SchemaDdl

open Json
open Json.Decode

/-! ## Names and parameters -/

theorem QualifiedName.faithful : Faithful QualifiedName.decode QualifiedName.encode where
  notNull := rfl
  survives := by
    intro depth value name _ decoded
    rcases Option.map_eq_some_iff.mp decoded with ⟨text, _, rfl⟩
    exact ⟨congrArg some (FromText.ofText_text ⟨text, rfl⟩), .string _⟩

theorem StorageOption.faithful : Faithful StorageOption.decode StorageOption.encode := by
  refine faithful_of_recorded (by decide) fun depth fields _ fits decoded => ?_
  simp only [Option.bind_eq_bind, Option.bind_eq_some_iff, Option.pure_def,
    Option.some.injEq] at decoded
  rcases decoded with ⟨key, readKey, value, readValue, rfl⟩
  have key := carries_required faithful_string fits readKey
  have value := carries_required faithful_string fits readValue
  exact ⟨_, key.cons (value.cons (.nil _)), rfl, rfl⟩

/-! ## Columns -/

theorem ReferentialAction.faithful : Faithful ReferentialAction.decode ReferentialAction.encode :=
  faithful_named fun action => by cases action <;> rfl

theorem ReferentialAction.faithful_within :
    Faithful ReferentialAction.decodeWithin ReferentialAction.encode :=
  faithful_namedWithin fun action => by cases action <;> rfl

theorem Reference.faithful : Faithful Reference.decode Reference.encode := by
  refine faithful_of_recorded (by decide) fun depth fields _ fits decoded => ?_
  simp only [Option.bind_eq_bind, Option.bind_eq_some_iff, Option.pure_def,
    Option.some.injEq] at decoded
  rcases decoded with
    ⟨table, readTable, column, readColumn, onDelete, readOnDelete, onUpdate, readOnUpdate, rfl⟩
  have table := carries_required QualifiedName.faithful fits readTable
  have column := carries_required faithful_string fits readColumn
  have onDelete := carries_optional ReferentialAction.faithful fits readOnDelete
  have onUpdate := carries_optional ReferentialAction.faithful fits readOnUpdate
  refine ⟨_, table.cons (column.cons (onDelete.cons (onUpdate.cons (.nil _)))), ?_, rfl⟩
  simp

theorem faithful_float : Faithful Decode.float (fun value => .number (.float value)) where
  notNull := rfl
  survives := by
    intro depth value float fits decoded
    unfold Decode.float at decoded
    split at decoded
    case h_1 =>
      cases decoded
      cases fits with
      | integer low high =>
          exact ⟨rfl, .float (Binary64.isFinite_ofInt (natAbs_lt_of_bounds low high))⟩
    case h_2 =>
      cases decoded
      cases fits with
      | float finite => exact ⟨rfl, .float finite⟩
    case h_3 => cases decoded

theorem survives_settled {depth : Nat} {value settled : Value} (fits : value.Fits true depth)
    (found : value.settle? = some settled) : Survives Value.settle? id depth settled :=
  ⟨(settled_of_settle? fits found).2, (settled_of_settle? fits found).1⟩

theorem Literal.faithful : Faithful Literal.decode Literal.encode where
  notNull := rfl
  survives := by
    intro depth value literal fits decoded
    unfold Literal.decode at decoded
    split at decoded
    case h_1 | h_2 =>
      cases decoded
      exact ⟨rfl, .string _⟩
    case h_3 =>
      exact survives_choice fits decoded faithful_bool.survives (fun _ => rfl) (fun _ => rfl)
    case h_4 =>
      exact survives_choice fits decoded faithful_int64.survives (fun _ => rfl) (fun _ => rfl)
    case h_5 =>
      exact survives_choice fits decoded faithful_float.survives (fun _ => rfl) (fun _ => rfl)
    case h_6 =>
      exact survives_choice fits decoded faithful_string.survives (fun _ => rfl) (fun _ => rfl)
    case h_7 =>
      exact survives_choice fits decoded survives_settled (fun _ => rfl) (fun _ => rfl)
    case h_8 => cases decoded

theorem Sentinel.faithful :
    Faithful Sentinel.decode (fun sentinel => .string sentinel.code) :=
  faithful_named fun sentinel => by cases sentinel <;> rfl

theorem Default.faithful : Faithful Default.decode Default.encode where
  notNull := rfl
  survives := by
    intro depth value default fits decoded
    unfold Default.decode at decoded
    split at decoded
    case h_1 =>
      exact survives_choice fits decoded Literal.faithful.survives (fun _ => rfl) (fun _ => rfl)
    case h_2 =>
      exact survives_choice fits decoded faithful_string.survives (fun _ => rfl) (fun _ => rfl)
    case h_3 =>
      exact survives_choice fits decoded Sentinel.faithful.survives (fun _ => rfl) (fun _ => rfl)
    case h_4 => cases decoded

theorem survives_bool (depth : Nat) (flag : Bool) : Survives Decode.bool Value.bool depth flag :=
  ⟨rfl, .bool flag⟩

theorem Generation.faithful : Faithful Generation.decode Generation.encode := by
  refine faithful_of_recorded (by decide) fun depth fields _ fits decoded => ?_
  simp only [Option.bind_eq_bind, Option.bind_eq_some_iff, Option.pure_def,
    Option.some.injEq] at decoded
  rcases decoded with ⟨expression, readExpression, stored, readStored, rfl⟩
  have expression := carries_required faithful_string fits readExpression
  have stored := carries_defaulted faithful_bool fits (survives_bool _ _) readStored
  exact ⟨_, expression.cons (stored.cons (.nil _)), rfl, rfl⟩

theorem Column.faithful : Faithful Column.decode Column.encode := by
  refine faithful_of_recorded (by decide) fun depth fields _ fits decoded => ?_
  rcases Option.bind_eq_some_iff.mp decoded with ⟨name, readName, decoded⟩
  rcases Option.bind_eq_some_iff.mp decoded with ⟨dataType, readType, decoded⟩
  rcases Option.bind_eq_some_iff.mp decoded with ⟨nullable, readNullable, decoded⟩
  rcases Option.bind_eq_some_iff.mp decoded with ⟨primaryKey, readPrimaryKey, decoded⟩
  rcases Option.bind_eq_some_iff.mp decoded with ⟨unique, readUnique, decoded⟩
  rcases Option.bind_eq_some_iff.mp decoded with ⟨autoIncrement, readAutoIncrement, decoded⟩
  rcases Option.bind_eq_some_iff.mp decoded with ⟨generated, readGenerated, decoded⟩
  rcases Option.bind_eq_some_iff.mp decoded with ⟨default, readDefault, decoded⟩
  rcases Option.bind_eq_some_iff.mp decoded with ⟨references, readReferences, decoded⟩
  rcases Option.bind_eq_some_iff.mp decoded with ⟨check, readCheck, decoded⟩
  rcases Option.bind_eq_some_iff.mp decoded with ⟨arrayDimensions, readDimensions, decoded⟩
  rcases Option.bind_eq_some_iff.mp decoded with ⟨collation, readCollation, decoded⟩
  rcases Option.bind_eq_some_iff.mp decoded with ⟨comment, readComment, decoded⟩
  cases decoded
  have name := carries_required faithful_string fits readName
  have dataType := carries_required faithful_string fits readType
  have nullable := carries_defaulted faithful_bool fits (survives_bool _ _) readNullable
  have primaryKey := carries_defaulted faithful_bool fits (survives_bool _ _) readPrimaryKey
  have unique := carries_defaulted faithful_bool fits (survives_bool _ _) readUnique
  have autoIncrement := carries_defaulted faithful_bool fits (survives_bool _ _) readAutoIncrement
  have generated := carries_optional Generation.faithful fits readGenerated
  have default := carries_optional Default.faithful fits readDefault
  have references := carries_optional Reference.faithful fits readReferences
  have check := carries_optional faithful_string fits readCheck
  have arrayDimensions := carries_defaulted (faithful_nat (by decide)) fits
    ⟨rfl, .integer (by decide) (by decide)⟩ readDimensions
  have collation := carries_optional faithful_string fits readCollation
  have comment := carries_optional faithful_string fits readComment
  refine ⟨_, name.cons (dataType.cons (nullable.cons (primaryKey.cons (unique.cons
    (autoIncrement.cons (generated.cons (default.cons (references.cons (check.cons
    (arrayDimensions.cons (collation.cons (comment.cons (.nil _))))))))))))), ?_, rfl⟩
  simp


/-! ## Constraints -/

theorem ExclusionElement.faithful : Faithful ExclusionElement.decode ExclusionElement.encode := by
  refine faithful_of_recorded (by decide) fun depth fields _ fits decoded => ?_
  simp only [Option.bind_eq_bind, Option.bind_eq_some_iff, Option.pure_def,
    Option.some.injEq] at decoded
  rcases decoded with ⟨expression, readExpression, operator, readOperator, rfl⟩
  have expression := carries_required faithful_string fits readExpression
  have operator := carries_required faithful_string fits readOperator
  exact ⟨_, expression.cons (operator.cons (.nil _)), rfl, rfl⟩

/-- What a kind of constraint leaves among the members of the constraint: its tag and parts of its
own, from which its decoder takes it whatever the name of the constraint is. -/
structure ConstraintKind.Tagged (depth : Nat) (tag : String) (decoder : Decoder ConstraintKind)
    (kind : ConstraintKind) (parts : List (String × Option Value)) : Prop where
  written : kind.encodeMembers = present (("type", some (.string tag)) :: parts)
  distinct : ("name" :: "type" :: parts.map Prod.fst).Nodup
  fits : ∀ part ∈ parts, ∀ value ∈ part.2, value.Fits false (depth + 1)
  back : ∀ name?, decoder (.object
    (present (("name", name?) :: ("type", some (.string tag)) :: parts))) = some kind

theorem ConstraintKind.exists_tagged {α : Type} {known : List String}
    {read : List (String × Value) → Option α} {written : α → List (String × Value)}
    {wrap : α → ConstraintKind} {tag : String} {depth : Nat} {value : Value} {kind : ConstraintKind}
    (fits : value.Fits true depth)
    (decoded : ((members known value).bind read).map wrap = some kind)
    (recorded : Recorded (depth + 1) known read written)
    (distinct : ("name" :: "type" :: known).Nodup)
    (writes : ∀ object, (wrap object).encodeMembers = ("type", .string tag) :: written object) :
    ∃ parts, Tagged depth tag (fun value => ((members known value).bind read).map wrap) kind
      parts := by
  rcases Option.map_eq_some_iff.mp decoded with ⟨object, taken, rfl⟩
  rcases Option.bind_eq_some_iff.mp taken with ⟨fields, found, read⟩
  rcases fits_of_members fits found with ⟨_, inside⟩
  rcases recorded fields object inside read with ⟨parts, carries, encoded, rfl⟩
  refine ⟨parts, ?_, distinct, carries.fits, fun name? => ?_⟩
  · rw [writes, encoded, present_cons_some]
  · have back := carries.back_present rfl [("name", name?), ("type", some (.string tag))] distinct
    exact congrArg (Option.map wrap) back

theorem ConstraintKind.exists_tag {tag : Value} {decoder : Decoder ConstraintKind}
    (found : decoder? tag = some decoder) : ∃ name, (name, decoder) ∈ decoders := by
  unfold decoder? at found
  split at found
  case h_1 name => exact ⟨name, mem_of_lookup found⟩
  case h_2 place =>
    split at found
    case isTrue =>
      rcases Option.map_eq_some_iff.mp found with ⟨entry, held, rfl⟩
      exact ⟨entry.1, List.mem_of_getElem? held⟩
    case isFalse => cases found
  case h_3 => cases found

theorem ConstraintKind.recorded_columns (depth : Nat) :
    Recorded depth ["columns"] (fun fields => required "columns" (list string) fields)
      (fun columns => [("columns", Value.ofStrings columns)]) := by
  intro fields columns fits decoded
  exact ⟨_, carries_required (faithful_list faithful_string) fits decoded, rfl, rfl⟩

theorem ConstraintKind.recorded_expression (depth : Nat) :
    Recorded depth ["expression"] (fun fields => required "expression" string fields)
      (fun expression => [("expression", .string expression)]) := by
  intro fields expression fits decoded
  exact ⟨_, carries_required faithful_string fits decoded, rfl, rfl⟩

def ForeignKey.ownMembers (key : ForeignKey) : List (String × Value) :=
  [("columns", Value.ofStrings key.columns), ("references_table", key.table.encode),
      ("references_columns", Value.ofStrings key.referencedColumns)]
    ++ memberIfSome "on_delete" ReferentialAction.encode key.onDelete
    ++ memberIfSome "on_update" ReferentialAction.encode key.onUpdate
    ++ [("deferrable", .bool key.deferrable)]

def Exclusion.ownMembers (parts : Exclusion) : List (String × Value) :=
  [("method", .string parts.method),
      ("elements", .array (parts.elements.map ExclusionElement.encode))]
    ++ memberIfSome "predicate" Value.string parts.predicate

theorem ConstraintKind.exists_tagged_of_decoder {name : String} {decoder : Decoder ConstraintKind}
    (among : (name, decoder) ∈ decoders) {depth : Nat} {value : Value} {kind : ConstraintKind}
    (fits : value.Fits true depth) (decoded : decoder value = some kind) :
    ∃ parts, Tagged depth name decoder kind parts := by
  simp only [decoders, List.mem_cons, Prod.mk.injEq, List.not_mem_nil, or_false] at among
  rcases among with ⟨rfl, rfl⟩ | ⟨rfl, rfl⟩ | ⟨rfl, rfl⟩ | ⟨rfl, rfl⟩ | ⟨rfl, rfl⟩
  · exact exists_tagged fits decoded (recorded_columns _) (by decide) (fun _ => rfl)
  · exact exists_tagged fits decoded (recorded_columns _) (by decide) (fun _ => rfl)
  · exact exists_tagged fits decoded (recorded_expression _) (by decide) (fun _ => rfl)
  · refine exists_tagged fits decoded (fun fields _ inside decoded => ?_) (by decide)
      (fun key => (rfl : _ = _ :: key.ownMembers))
    simp only [Option.bind_eq_bind, Option.bind_eq_some_iff, Option.pure_def,
      Option.some.injEq] at decoded
    rcases decoded with
      ⟨columns, readColumns, table, readTable, referencedColumns, readReferenced,
        onDelete, readOnDelete, onUpdate, readOnUpdate, deferrable, readDeferrable, rfl⟩
    have columns := carries_required (faithful_list faithful_string) inside readColumns
    have table := carries_required QualifiedName.faithful inside readTable
    have referenced := carries_required (faithful_list faithful_string) inside readReferenced
    have onDelete := carries_optional ReferentialAction.faithful_within inside readOnDelete
    have onUpdate := carries_optional ReferentialAction.faithful_within inside readOnUpdate
    have deferrable := carries_defaulted faithful_bool inside (survives_bool _ _) readDeferrable
    refine ⟨_, columns.cons (table.cons (referenced.cons (onDelete.cons (onUpdate.cons
      (deferrable.cons (.nil _)))))), ?_, rfl⟩
    simp [ForeignKey.ownMembers, Value.ofStrings]
  · refine exists_tagged fits decoded (fun fields _ inside decoded => ?_) (by decide)
      (fun parts => (rfl : _ = _ :: parts.ownMembers))
    simp only [Option.bind_eq_bind, Option.bind_eq_some_iff, Option.pure_def,
      Option.some.injEq] at decoded
    rcases decoded with
      ⟨method, readMethod, elements, readElements, predicate, readPredicate, rfl⟩
    have method := carries_defaulted faithful_string inside ⟨rfl, .string _⟩ readMethod
    have elements := carries_required (faithful_list ExclusionElement.faithful) inside readElements
    have predicate := carries_optional faithful_string inside readPredicate
    refine ⟨_, method.cons (elements.cons (predicate.cons (.nil _))), ?_, rfl⟩
    simp [Exclusion.ownMembers]

theorem ConstraintKind.decoder?_of_mem {name : String} {decoder : Decoder ConstraintKind}
    (among : (name, decoder) ∈ decoders) : decoder? (.string name) = some decoder := by
  simp only [decoders, List.mem_cons, Prod.mk.injEq, List.not_mem_nil, or_false] at among
  rcases among with ⟨rfl, rfl⟩ | ⟨rfl, rfl⟩ | ⟨rfl, rfl⟩ | ⟨rfl, rfl⟩ | ⟨rfl, rfl⟩ <;> rfl

theorem Constraint.faithful : Faithful Constraint.decode Constraint.encode where
  notNull := rfl
  survives := by
    intro depth value constraint fits decoded
    simp only [Constraint.decode, Option.bind_eq_bind, Option.bind_eq_some_iff, Option.pure_def,
      Option.some.injEq] at decoded
    rcases decoded with
      ⟨_, _, fields, known, name?, readName, decoder, readDecoder, kind, readKind, rfl⟩
    rcases fits_of_keyed fits known with ⟨shallow, inside⟩
    have name := carries_optional faithful_string inside readName
    rcases Option.bind_eq_some_iff.mp readDecoder with ⟨_, _, tag⟩
    rcases ConstraintKind.exists_tag tag with ⟨tag, among⟩
    rcases ConstraintKind.exists_tagged_of_decoder among fits readKind with ⟨parts, tagged⟩
    have encoded : Constraint.encode ⟨name?, kind⟩ = .object (present
        (("name", name?.map .string) :: ("type", some (.string tag)) :: parts)) := by
      rw [Constraint.encode, tagged.written, present_cons_map]
    have written : (Constraint.encode ⟨name?, kind⟩).Fits false depth := by
      rw [encoded]
      refine fits_present shallow (List.forall_mem_cons.mpr ⟨?_, ?_⟩)
      · exact name.fits _ List.mem_cons_self
      · refine List.forall_mem_cons.mpr ⟨fun value equal => ?_, tagged.fits⟩
        exact Option.some.inj equal ▸ .string tag
    refine ⟨?_, written⟩
    rcases Option.isSome_iff_exists.mp (isSome_settle? written) with ⟨settled, settles⟩
    have distinct : ((("name", name?.map Value.string) :: ("type", some (Value.string tag)) ::
        parts).map Prod.fst).Nodup := tagged.distinct
    rcases exists_keyed_present ["name", "type"] distinct with ⟨kept, found, lookups⟩
    rw [encoded] at settles ⊢
    have nameBack : Decode.optional "name" string kept = some name? :=
      name.back (List.forall_mem_singleton.mpr (lookups _ List.mem_cons_self List.mem_cons_self))
    have tagBack : kept.lookup "type" = some (.string tag) :=
      lookups _ (List.mem_cons_of_mem _ List.mem_cons_self)
        (List.mem_cons_of_mem _ List.mem_cons_self)
    simp only [Constraint.decode, settles, found, nameBack, required, tagBack,
      ConstraintKind.decoder?_of_mem among, tagged.back, Option.bind_eq_bind, Option.bind_some,
      Option.pure_def]

/-! ## Indexes -/

theorem IndexMethod.faithful : Faithful IndexMethod.decode IndexMethod.encode where
  notNull := rfl
  survives := by
    intro depth value method fits decoded
    unfold IndexMethod.decode at decoded
    split at decoded
    case h_1 =>
      exact survives_choice fits decoded faithful_string.survives (fun _ => rfl) (fun _ => rfl)
    case h_2 =>
      rcases exists_mem_of_named decoded with ⟨name, among⟩
      simp only [codes, List.mem_cons, Prod.mk.injEq, List.not_mem_nil, or_false] at among
      rcases among with ⟨-, rfl⟩ | ⟨-, rfl⟩ | ⟨-, rfl⟩ | ⟨-, rfl⟩ | ⟨-, rfl⟩ | ⟨-, rfl⟩ | ⟨-, rfl⟩
      all_goals exact ⟨rfl, .string _⟩

theorem SortDirection.faithful :
    Faithful SortDirection.decode (fun direction => .string direction.code) :=
  faithful_named fun direction => by cases direction <;> rfl

theorem NullsOrder.faithful :
    Faithful NullsOrder.decode (fun nulls => .string nulls.code) :=
  faithful_named fun nulls => by cases nulls <;> rfl

theorem IndexTarget.faithful : Faithful IndexTarget.decode IndexTarget.encode where
  notNull := rfl
  survives := by
    intro depth value target fits decoded
    unfold IndexTarget.decode at decoded
    split at decoded
    case h_1 =>
      exact survives_choice fits decoded faithful_string.survives (fun _ => rfl) (fun _ => rfl)
    case h_2 =>
      exact survives_choice fits decoded faithful_string.survives (fun _ => rfl) (fun _ => rfl)
    case h_3 => cases decoded

theorem IndexKey.faithful : Faithful IndexKey.decode IndexKey.encode := by
  refine faithful_of_recorded (by decide) fun depth fields _ fits decoded => ?_
  simp only [Option.bind_eq_bind, Option.bind_eq_some_iff, Option.pure_def,
    Option.some.injEq] at decoded
  rcases decoded with ⟨target, readTarget, direction, readDirection, nulls, readNulls, rfl⟩
  have target := carries_required IndexTarget.faithful fits readTarget
  have direction := carries_optional SortDirection.faithful fits readDirection
  have nulls := carries_optional NullsOrder.faithful fits readNulls
  refine ⟨_, target.cons (direction.cons (nulls.cons (.nil _))), ?_, rfl⟩
  simp

theorem Index.faithful : Faithful Index.decode Index.encode := by
  refine faithful_of_recorded (by decide) fun depth fields _ fits decoded => ?_
  simp only [Option.bind_eq_bind, Option.bind_eq_some_iff, Option.pure_def,
    Option.some.injEq] at decoded
  rcases decoded with
    ⟨name, readName, table, readTable, keys, readKeys, method, readMethod, unique, readUnique,
      predicate, readPredicate, covering, readCovering, storage, readStorage,
      tablespace, readTablespace, rfl⟩
  have name := carries_required faithful_string fits readName
  have table := carries_required QualifiedName.faithful fits readTable
  have keys := carries_required (faithful_list IndexKey.faithful) fits readKeys
  have method := carries_defaulted IndexMethod.faithful fits ⟨rfl, .string _⟩ readMethod
  have unique := carries_defaulted faithful_bool fits (survives_bool _ _) readUnique
  have predicate := carries_optional faithful_string fits readPredicate
  have covering := carries_list faithful_string fits readCovering
  have storage := carries_list StorageOption.faithful fits readStorage
  have tablespace := carries_optional faithful_string fits readTablespace
  refine ⟨_, name.cons (table.cons (keys.cons (method.cons (unique.cons (predicate.cons
    (covering.cons (storage.cons (tablespace.cons (.nil _))))))))), ?_, rfl⟩
  simp

/-! ## Tables -/

theorem PartitionStrategy.faithful :
    Faithful PartitionStrategy.decode (fun strategy => .string strategy.code) :=
  faithful_named fun strategy => by cases strategy <;> rfl

theorem Partitioning.faithful : Faithful Partitioning.decode Partitioning.encode := by
  refine faithful_of_recorded (by decide) fun depth fields _ fits decoded => ?_
  simp only [Option.bind_eq_bind, Option.bind_eq_some_iff, Option.pure_def,
    Option.some.injEq] at decoded
  rcases decoded with ⟨strategy, readStrategy, columns, readColumns, rfl⟩
  have strategy := carries_required PartitionStrategy.faithful fits readStrategy
  have columns := carries_required (faithful_list faithful_string) fits readColumns
  exact ⟨_, strategy.cons (columns.cons (.nil _)), rfl, rfl⟩

theorem TableOptions.faithful : Faithful TableOptions.decode TableOptions.encode := by
  refine faithful_of_recorded (by decide) fun depth fields _ fits decoded => ?_
  simp only [Option.bind_eq_bind, Option.bind_eq_some_iff, Option.pure_def,
    Option.some.injEq] at decoded
  rcases decoded with
    ⟨temporary, readTemporary, unlogged, readUnlogged, tablespace, readTablespace,
      parameters, readParameters, withoutRowid, readWithoutRowid, strict, readStrict, rfl⟩
  have temporary := carries_defaulted faithful_bool fits (survives_bool _ _) readTemporary
  have unlogged := carries_defaulted faithful_bool fits (survives_bool _ _) readUnlogged
  have tablespace := carries_optional faithful_string fits readTablespace
  have parameters := carries_list StorageOption.faithful fits readParameters
  have withoutRowid := carries_defaulted faithful_bool fits (survives_bool _ _) readWithoutRowid
  have strict := carries_defaulted faithful_bool fits (survives_bool _ _) readStrict
  refine ⟨_, temporary.cons (unlogged.cons (tablespace.cons (parameters.cons (withoutRowid.cons
    (strict.cons (.nil _)))))), ?_, rfl⟩
  simp

theorem Tenancy.faithful :
    Faithful Tenancy.decode (fun tenancy => .string tenancy.code) :=
  faithful_named fun tenancy => by cases tenancy <;> rfl

theorem PlatformSettings.faithful : Faithful PlatformSettings.decode PlatformSettings.encode := by
  refine faithful_of_recorded (by decide) fun depth fields _ fits decoded => ?_
  simp only [Option.bind_eq_bind, Option.bind_eq_some_iff, Option.pure_def,
    Option.some.injEq] at decoded
  rcases decoded with ⟨locality, readLocality, zoneConfig, readZoneConfig, tenant, readTenant, rfl⟩
  have locality := carries_optional faithful_string fits readLocality
  have zoneConfig := carries_list StorageOption.faithful fits readZoneConfig
  have tenant := carries_optional Tenancy.faithful fits readTenant
  refine ⟨_, locality.cons (zoneConfig.cons (tenant.cons (.nil _))), ?_, rfl⟩
  simp

theorem TableOptions.isDefault_iff {options : TableOptions} :
    options.isDefault = true ↔ options = {} :=
  beq_iff_eq

theorem PlatformSettings.isEmpty_iff {platform : PlatformSettings} :
    platform.isEmpty = true ↔ platform = {} :=
  beq_iff_eq

theorem Table.faithful : Faithful Table.decode Table.encode := by
  refine faithful_of_recorded (by decide) fun depth fields _ fits decoded => ?_
  simp only [Option.bind_eq_bind, Option.bind_eq_some_iff, Option.pure_def,
    Option.some.injEq] at decoded
  rcases decoded with
    ⟨name, readName, schema, readSchema, columns, readColumns, constraints, readConstraints,
      indexes, readIndexes, inherits, readInherits, partitioning, readPartitioning,
      options, readOptions, comment, readComment, platform, readPlatform, rfl⟩
  have name := carries_required faithful_string fits readName
  have schema := carries_optional faithful_string fits readSchema
  have columns := carries_required (faithful_list Column.faithful) fits readColumns
  have constraints := carries_list Constraint.faithful fits readConstraints
  have indexes := carries_list Index.faithful fits readIndexes
  have inherits := carries_list QualifiedName.faithful fits readInherits
  have partitioning := carries_optional Partitioning.faithful fits readPartitioning
  have options :=
    carries_defaulted_unless TableOptions.faithful fits TableOptions.isDefault_iff readOptions
  have comment := carries_optional faithful_string fits readComment
  have platform := carries_defaulted_unless PlatformSettings.faithful fits
    PlatformSettings.isEmpty_iff readPlatform
  refine ⟨_, name.cons (schema.cons (columns.cons (constraints.cons (indexes.cons (inherits.cons
    (partitioning.cons (options.cons (comment.cons (platform.cons (.nil _)))))))))), ?_, rfl⟩
  simp

/-! ## Other objects -/

theorem EnumType.faithful : Faithful EnumType.decode EnumType.encode := by
  refine faithful_of_recorded (by decide) fun depth fields _ fits decoded => ?_
  simp only [Option.bind_eq_bind, Option.bind_eq_some_iff, Option.pure_def,
    Option.some.injEq] at decoded
  rcases decoded with ⟨name, readName, values, readValues, rfl⟩
  have name := carries_required QualifiedName.faithful fits readName
  have values := carries_required (faithful_list faithful_string) fits readValues
  exact ⟨_, name.cons (values.cons (.nil _)), rfl, rfl⟩

theorem Sequence.faithful : Faithful Sequence.decode Sequence.encode := by
  refine faithful_of_recorded (by decide) fun depth fields _ fits decoded => ?_
  simp only [Option.bind_eq_bind, Option.bind_eq_some_iff, Option.pure_def,
    Option.some.injEq] at decoded
  rcases decoded with
    ⟨name, readName, ownedBy, readOwnedBy, start, readStart, increment, readIncrement, rfl⟩
  have name := carries_required QualifiedName.faithful fits readName
  have ownedBy := carries_optional faithful_string fits readOwnedBy
  have start := carries_optional faithful_int64 fits readStart
  have increment := carries_optional faithful_int64 fits readIncrement
  refine ⟨_, name.cons (ownedBy.cons (start.cons (increment.cons (.nil _)))), ?_, rfl⟩
  simp

theorem FunctionBody.faithful : Faithful FunctionBody.decode FunctionBody.encode where
  notNull := rfl
  survives := by
    intro depth value body fits decoded
    unfold FunctionBody.decode at decoded
    split at decoded
    case h_1 =>
      exact survives_choice fits decoded faithful_string.survives (fun _ => rfl) (fun _ => rfl)
    case h_2 =>
      exact survives_choice fits decoded (faithful_list faithful_string).survives (fun _ => rfl)
        (fun _ => rfl)
    case h_3 => cases decoded

theorem Volatility.faithful :
    Faithful Volatility.decode (fun volatility => .string volatility.code) :=
  faithful_named fun volatility => by cases volatility <;> rfl

theorem StoredFunction.faithful : Faithful StoredFunction.decode StoredFunction.encode := by
  refine faithful_of_recorded (by decide) fun depth fields _ fits decoded => ?_
  simp only [Option.bind_eq_bind, Option.bind_eq_some_iff, Option.pure_def,
    Option.some.injEq] at decoded
  rcases decoded with
    ⟨name, readName, arguments, readArguments, returns, readReturns, language, readLanguage,
      body, readBody, volatility, readVolatility, orReplace, readOrReplace, rfl⟩
  have name := carries_required QualifiedName.faithful fits readName
  have arguments := carries_defaulted faithful_string fits ⟨rfl, .string _⟩ readArguments
  have returns := carries_required faithful_string fits readReturns
  have language := carries_required faithful_string fits readLanguage
  have body := carries_required FunctionBody.faithful fits readBody
  have volatility := carries_optional Volatility.faithful fits readVolatility
  have orReplace := carries_defaulted faithful_bool fits (survives_bool _ _) readOrReplace
  refine ⟨_, name.cons (arguments.cons (returns.cons (language.cons (body.cons (volatility.cons
    (orReplace.cons (.nil _))))))), ?_, rfl⟩
  simp

theorem TriggerTiming.faithful :
    Faithful TriggerTiming.decode (fun timing => .string timing.code) :=
  faithful_named fun timing => by cases timing <;> rfl

theorem TriggerEvent.faithful :
    Faithful TriggerEvent.decode (fun event => .string event.code) :=
  faithful_named fun event => by cases event <;> rfl

theorem Trigger.faithful : Faithful Trigger.decode Trigger.encode := by
  refine faithful_of_recorded (by decide) fun depth fields _ fits decoded => ?_
  simp only [Option.bind_eq_bind, Option.bind_eq_some_iff, Option.pure_def,
    Option.some.injEq] at decoded
  rcases decoded with
    ⟨name, readName, table, readTable, timing, readTiming, events, readEvents,
      forEachRow, readForEachRow, condition, readCondition, function, readFunction, body, readBody,
      rfl⟩
  have name := carries_required faithful_string fits readName
  have table := carries_required QualifiedName.faithful fits readTable
  have timing := carries_required TriggerTiming.faithful fits readTiming
  have events := carries_required (faithful_list TriggerEvent.faithful) fits readEvents
  have forEachRow := carries_defaulted faithful_bool fits (survives_bool _ _) readForEachRow
  have condition := carries_optional faithful_string fits readCondition
  have function := carries_optional QualifiedName.faithful fits readFunction
  have body := carries_list faithful_string fits readBody
  refine ⟨_, name.cons (table.cons (timing.cons (events.cons (forEachRow.cons (condition.cons
    (function.cons (body.cons (.nil _)))))))), ?_, rfl⟩
  simp

theorem PolicyCommand.faithful :
    Faithful PolicyCommand.decode (fun command => .string command.code) :=
  faithful_named fun command => by cases command <;> rfl

theorem Policy.faithful : Faithful Policy.decode Policy.encode := by
  refine faithful_of_recorded (by decide) fun depth fields _ fits decoded => ?_
  simp only [Option.bind_eq_bind, Option.bind_eq_some_iff, Option.pure_def,
    Option.some.injEq] at decoded
  rcases decoded with
    ⟨name, readName, table, readTable, command, readCommand, roles, readRoles, visible, readVisible,
      writable, readWritable, rfl⟩
  have name := carries_required faithful_string fits readName
  have table := carries_required QualifiedName.faithful fits readTable
  have command := carries_defaulted PolicyCommand.faithful fits ⟨rfl, .string _⟩ readCommand
  have roles := carries_list faithful_string fits readRoles
  have visible := carries_optional faithful_string fits readVisible
  have writable := carries_optional faithful_string fits readWritable
  refine ⟨_, name.cons (table.cons (command.cons (roles.cons (visible.cons (writable.cons (.nil
    _)))))), ?_, rfl⟩
  simp

theorem View.faithful : Faithful View.decode View.encode := by
  refine faithful_of_recorded (by decide) fun depth fields _ fits decoded => ?_
  simp only [Option.bind_eq_bind, Option.bind_eq_some_iff, Option.pure_def,
    Option.some.injEq] at decoded
  rcases decoded with ⟨name, readName, query, readQuery, materialized, readMaterialized, rfl⟩
  have name := carries_required QualifiedName.faithful fits readName
  have query := carries_required faithful_string fits readQuery
  have materialized := carries_defaulted faithful_bool fits (survives_bool _ _) readMaterialized
  exact ⟨_, name.cons (query.cons (materialized.cons (.nil _))), rfl, rfl⟩

theorem Extension.faithful : Faithful Extension.decode Extension.encode := by
  refine faithful_of_recorded (by decide) fun depth fields _ fits decoded => ?_
  simp only [Option.bind_eq_bind, Option.bind_eq_some_iff, Option.pure_def,
    Option.some.injEq] at decoded
  rcases decoded with ⟨name, readName, schema, readSchema, rfl⟩
  have name := carries_required faithful_string fits readName
  have schema := carries_optional faithful_string fits readSchema
  refine ⟨_, name.cons (schema.cons (.nil _)), ?_, rfl⟩
  simp

/-! ## Schemas -/

theorem Schema.survives {value : Value} {schema : Schema} (fits : value.Fits true 0)
    (decoded : Schema.decode value = some schema) :
    Survives Schema.decode Schema.encode 0 schema := by
  refine Recorded.survives (fun fields _ inside decoded => ?_) (by decide) fits decoded
  simp only [Option.bind_eq_bind, Option.bind_eq_some_iff, Option.pure_def,
    Option.some.injEq] at decoded
  rcases decoded with
    ⟨tables, readTables, enums, readEnums, sequences, readSequences, functions, readFunctions,
      triggers, readTriggers, policies, readPolicies, views, readViews,
      extensions, readExtensions, rfl⟩
  have tables := carries_defaulted (faithful_list Table.faithful) inside
    ⟨rfl, .array (by decide) (fun _ among => absurd among List.not_mem_nil)⟩ readTables
  have enums := carries_list EnumType.faithful inside readEnums
  have sequences := carries_list Sequence.faithful inside readSequences
  have functions := carries_list StoredFunction.faithful inside readFunctions
  have triggers := carries_list Trigger.faithful inside readTriggers
  have policies := carries_list Policy.faithful inside readPolicies
  have views := carries_list View.faithful inside readViews
  have extensions := carries_list Extension.faithful inside readExtensions
  refine ⟨_, tables.cons (enums.cons (sequences.cons (functions.cons (triggers.cons
    (policies.cons (views.cons (extensions.cons (.nil _)))))))), ?_, rfl⟩
  simp

/-- A schema that was read from a text is read from its snapshot again, when the text of each
finite floating-point number in it is. -/
theorem Schema.ofText?_compact_encode {text : String} {schema : Schema}
    (found : Schema.ofText? text = some schema)
    (floats : ∀ float : Binary64, float.isFinite = true →
      .float float ∈ schema.encode.numbers → Number.ReadsBack (.float float)) :
    Schema.ofText? schema.encode.compact = some schema := by
  rcases Option.bind_eq_some_iff.mp found with ⟨value, read, decoded⟩
  have survives := Schema.survives (fits_of_read read) decoded
  rw [Schema.ofText?, read_compact survives.fits floats]
  exact survives.back

namespace SnapshotExample

/-- A table with a constraint whose kind is named by its place and a floating-point default, and a
view of another schema; all else is left out. -/
def chars : List Char :=
  List.flatMap String.toList
    ["\x7b\"tables\":[\x7b\"name\":\"pages\",",
      "\"columns\":[\x7b\"name\":\"rank\",\"data_type\":\"real\",",
      "\"default\":\x7b\"literal\":\x7b\"float\":1.50\x7d\x7d\x7d],",
      "\"constraints\":[\x7b\"type\":0,\"columns\":[\"rank\"]\x7d]\x7d],",
      "\"views\":[\x7b\"name\":\"app.listed\",\"query\":\"TABLE pages\"\x7d]\x7d"]

end SnapshotExample

open SnapshotExample in
theorem Schema.ofText?_compact_encode_pages :
    ∃ schema, Schema.ofText? (.ofList chars) = some schema ∧
      (∀ float : Binary64, float.isFinite = true →
        .float float ∈ schema.encode.numbers → Number.ReadsBack (.float float)) ∧
      Schema.ofText? schema.encode.compact = some schema := by
  have more {first others : List Char} {texts : List String}
      (behind : texts.flatMap String.toList = others) :
      (String.ofList first :: texts).flatMap String.toList = first ++ others := by
    rw [List.flatMap_cons, String.toList_ofList, behind]
  have spelled : chars = _ := more (more (more (more (more rfl))))
  have taken : (Schema.ofText? (.ofList chars)).map (fun schema => schema.encode.numbers) =
      some [.float ⟨0x3FF8000000000000⟩, .integer 0] := by
    rw [Schema.ofText?, read_ofList, spelled]
    decide +kernel
  rcases Option.map_eq_some_iff.mp taken with ⟨schema, found, numbers⟩
  have floats : ∀ float : Binary64, float.isFinite = true →
      .float float ∈ schema.encode.numbers → Number.ReadsBack (.float float) := by
    intro float _ among
    rw [numbers] at among
    simp only [List.mem_cons, Number.float.injEq, reduceCtorEq, or_false, List.not_mem_nil]
      at among
    rw [among]
    decide +kernel
  exact ⟨schema, found, floats, Schema.ofText?_compact_encode found floats⟩

end SchemaDdl
