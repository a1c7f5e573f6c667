import SchemaDdl.Proofs.Json.Extent
import SchemaDdl.Schema.Snapshot

/-!
# Decoding what is encoded

`Faithful decode encode`: whatever the decoder takes from a value of the reader, it takes again from
the encoding of it, and the encoding fits the bounds of the reader in the same place. The lemmas
here carry this from the members of a structure to the structure.
-/

namespace SchemaDdl.Json

open Decode

section

variable {α : Type} {decode : Decoder α} {encode : α → Value} {depth : Nat}

/-- Whether an object is decoded from its encoding inside `depth` containers. -/
structure Survives (decode : Decoder α) (encode : α → Value) (depth : Nat) (object : α) :
    Prop where
  back : decode (encode object) = some object
  fits : (encode object).Fits false depth

/-- Whether everything that is decoded survives encoding. Null is never a value of the type. -/
structure Faithful (decode : Decoder α) (encode : α → Value) : Prop where
  survives : ∀ {depth value object}, value.Fits true depth → decode value = some object →
    Survives decode encode depth object
  notNull : decode .null = none

/-! ## Plain values -/

theorem faithful_bool : Faithful Decode.bool Value.bool where
  survives := fun _ _ => ⟨rfl, .bool _⟩
  notNull := rfl

theorem faithful_string : Faithful string Value.string where
  survives := fun _ _ => ⟨rfl, .string _⟩
  notNull := rfl

theorem bounds_of_integer {least greatest value : Int} {number : Value}
    (decoded : integer least greatest number = some value) : least ≤ value ∧ value ≤ greatest := by
  unfold integer at decoded
  split at decoded
  case h_1 =>
    split at decoded
    case isTrue bounds =>
      cases decoded
      exact bounds
    case isFalse => cases decoded
  case h_2 => cases decoded

theorem faithful_int64 : Faithful int64 Value.ofInt where
  survives := by
    intro depth number value _ decoded
    rcases bounds_of_integer decoded with ⟨low, high⟩
    have limit : Int.pow 2 63 - 1 ≤ largestSignificand := by decide
    exact ⟨if_pos ⟨low, high⟩, .integer low (Int.le_trans high limit)⟩
  notNull := rfl

theorem faithful_nat {greatest : Nat} (small : greatest ≤ largestSignificand) :
    Faithful (nat greatest) Value.ofNat where
  survives := by
    intro depth number value _ decoded
    rcases Option.map_eq_some_iff.mp decoded with ⟨whole, found, rfl⟩
    rcases bounds_of_integer found with ⟨low, high⟩
    have same : (whole.toNat : Int) = whole := Int.toNat_of_nonneg low
    have least : -Int.pow 2 63 ≤ 0 := by decide
    refine ⟨?_, .integer (by omega) (by omega)⟩
    rw [nat, Value.ofNat, integer, if_pos (by omega)]
    rfl
  notNull := rfl

theorem faithful_named {names : List (String × α)} {code : α → String}
    (found : ∀ choice, names.lookup (code choice) = some choice) :
    Faithful (named names) (fun choice => .string (code choice)) where
  survives := fun _ _ => ⟨found _, .string _⟩
  notNull := rfl

theorem faithful_namedWithin {names : List (String × α)} {code : α → String}
    (found : ∀ choice, names.lookup (code choice) = some choice) :
    Faithful (namedWithin names) (fun choice => .string (code choice)) where
  survives := fun _ _ => ⟨found _, .string _⟩
  notNull := rfl

/-! ## Lists -/

theorem mapM_map_of_survives {objects : List α}
    (each : ∀ object ∈ objects, Survives decode encode depth object) :
    (objects.map encode).mapM decode = some objects := by
  induction objects with
  | nil => rfl
  | cons object objects induction =>
      have others := induction fun object among => each object (List.mem_cons_of_mem _ among)
      rw [List.map_cons, List.mapM_cons, (each object List.mem_cons_self).back, others]
      rfl

theorem exists_of_mapM {values : List Value} {objects : List α}
    (decoded : values.mapM decode = some objects) {object : α} (among : object ∈ objects) :
    ∃ value ∈ values, decode value = some object := by
  induction values generalizing objects with
  | nil =>
      cases decoded
      cases among
  | cons value values induction =>
      rw [List.mapM_cons] at decoded
      rcases Option.bind_eq_some_iff.mp decoded with ⟨first, found, rest⟩
      rcases Option.bind_eq_some_iff.mp rest with ⟨others, othersFound, equal⟩
      cases equal
      rcases List.mem_cons.mp among with rfl | among
      · exact ⟨value, List.mem_cons_self, found⟩
      · rcases induction othersFound among with ⟨source, member, equal⟩
        exact ⟨source, List.mem_cons_of_mem _ member, equal⟩

theorem faithful_list (faithful : Faithful decode encode) :
    Faithful (list decode) (fun objects => .array (objects.map encode)) where
  survives := by
    intro depth value objects fits decoded
    cases fits with
    | array shallow each =>
        have survive : ∀ object ∈ objects, Survives decode encode (depth + 1) object := by
          intro object among
          rcases exists_of_mapM decoded among with ⟨value, member, found⟩
          exact faithful.survives (each value member) found
        refine ⟨mapM_map_of_survives survive, .array shallow ?_⟩
        exact List.forall_mem_map.mpr fun object among => (survive object among).fits
    | _ => cases decoded
  notNull := rfl

/-! ## Members -/

theorem fits_of_keyed {known : List String} {value : Value} {fields : List (String × Value)}
    (fits : value.Fits true depth) (found : keyed known value = some fields) :
    depth < deepest ∧ ∀ member ∈ fields, member.2.Fits true (depth + 1) := by
  cases fits with
  | object shallow each =>
      unfold keyed at found
      dsimp only at found
      split at found
      case isTrue =>
        cases found
        exact ⟨shallow, fun member among => each member (List.mem_filter.mp among).1⟩
      case isFalse => cases found
  | _ => cases found

theorem fits_of_members {known : List String} {value : Value} {fields : List (String × Value)}
    (fits : value.Fits true depth) (found : members known value = some fields) :
    depth < deepest ∧ ∀ member ∈ fields, member.2.Fits true (depth + 1) := by
  unfold members at found
  split at found
  case h_1 items =>
    cases fits with
    | array shallow each =>
        split at found
        case isTrue =>
          cases found
          exact ⟨shallow, fun member among => each _ (List.of_mem_zip among).2⟩
        case isFalse => cases found
  case h_2 => exact fits_of_keyed fits found

theorem mem_of_lookup {β : Type} {key : String} {value : β} {fields : List (String × β)}
    (found : fields.lookup key = some value) : (key, value) ∈ fields := by
  rcases List.lookup_eq_some_iff.mp found with ⟨before, after, rfl, _⟩
  simp

theorem exists_mem_of_named {names : List (String × α)} {value : Value} {choice : α}
    (decoded : named names value = some choice) : ∃ name, (name, choice) ∈ names := by
  unfold named at decoded
  split at decoded
  case h_1 | h_2 => exact ⟨_, mem_of_lookup decoded⟩
  case h_3 => cases decoded

/-- Members by key, some of which are left out. -/
def present (parts : List (String × Option Value)) : List (String × Value) :=
  parts.filterMap fun (key, value?) => value?.map (key, ·)

@[simp] theorem present_nil : present [] = [] :=
  rfl

@[simp] theorem present_cons_some (key : String) (value : Value)
    (parts : List (String × Option Value)) :
    present ((key, some value) :: parts) = (key, value) :: present parts :=
  rfl

@[simp] theorem present_cons_map (key : String) (object? : Option α)
    (parts : List (String × Option Value)) :
    present ((key, object?.map encode) :: parts) =
      memberIfSome key encode object? ++ present parts := by
  cases object? <;> rfl

def unlessOmitted (omitted : Bool) (value : Value) : Option Value :=
  if omitted then none else some value

@[simp] theorem present_cons_unless (omitted : Bool) (key : String) (value : Value)
    (parts : List (String × Option Value)) :
    present ((key, unlessOmitted omitted value) :: parts) =
      (if omitted then [] else [(key, value)]) ++ present parts := by
  cases omitted <;> rfl

@[simp] theorem memberIfNonempty_eq (key : String) (objects : List α) :
    memberIfNonempty key encode objects =
      if objects.isEmpty then [] else [(key, .array (objects.map encode))] := by
  cases objects <;> rfl

theorem keys_present_sublist (parts : List (String × Option Value)) :
    ((present parts).map Prod.fst).Sublist (parts.map Prod.fst) := by
  induction parts with
  | nil => exact .slnil
  | cons part parts induction =>
      rcases part with ⟨key, _ | value⟩
      · exact induction.cons key
      · exact induction.cons_cons key

theorem lookup_present {parts : List (String × Option Value)}
    (distinct : (parts.map Prod.fst).Nodup) {part : String × Option Value} (among : part ∈ parts) :
    (present parts).lookup part.1 = part.2 := by
  induction parts with
  | nil => cases among
  | cons first parts induction =>
      rcases first with ⟨key, value?⟩
      rcases List.nodup_cons.mp distinct with ⟨fresh, apart⟩
      rcases List.mem_cons.mp among with rfl | later
      · have missing : (present parts).lookup key = none := by
          refine List.lookup_eq_none_iff.mpr fun member held => ?_
          have inside := (keys_present_sublist parts).subset (List.mem_map_of_mem held)
          exact bne_iff_ne.mpr fun equal => fresh (equal ▸ inside)
        cases value? with
        | none => exact missing
        | some value => exact List.lookup_cons_self
      · have other : (part.1 == key) = false :=
          beq_false_of_ne fun equal => fresh (List.mem_map.mpr ⟨part, later, equal⟩)
        cases value? with
        | none => exact induction apart later
        | some value =>
            rw [present_cons_some, List.lookup_cons, other]
            exact induction apart later

theorem lookup_filter {keep : String → Bool} {key : String} (kept : keep key = true)
    (fields : List (String × Value)) :
    (fields.filter fun (key, _) => keep key).lookup key = fields.lookup key := by
  induction fields with
  | nil => rfl
  | cons member fields induction =>
      rcases member with ⟨other, value⟩
      cases same : key == other with
      | true =>
          rw [← eq_of_beq same, List.filter_cons_of_pos (by exact kept), List.lookup_cons_self,
            List.lookup_cons_self]
      | false =>
          cases keeps : keep other with
          | true =>
              rw [List.filter_cons_of_pos (by exact keeps), List.lookup_cons, List.lookup_cons,
                same, induction]
          | false =>
              rw [List.filter_cons_of_neg (by simp [keeps]), List.lookup_cons, same, induction]

theorem exists_keyed_present (known : List String) {parts : List (String × Option Value)}
    (distinct : (parts.map Prod.fst).Nodup) :
    ∃ kept, keyed known (.object (present parts)) = some kept ∧
      ∀ part ∈ parts, part.1 ∈ known → kept.lookup part.1 = part.2 := by
  have kept : ((present parts).filter fun (key, _) => known.contains key).Sublist (present parts) :=
    List.filter_sublist
  have names := kept.map Prod.fst
  refine ⟨_, if_pos ((names.trans (keys_present_sublist parts)).nodup distinct), ?_⟩
  intro part among inside
  rw [lookup_filter (List.contains_iff_mem.mpr inside)]
  exact lookup_present distinct among

/-- Whether what is read from members comes back from the written parts under the same keys. -/
structure Carries (depth : Nat) (read : List (String × Value) → Option α)
    (parts : List (String × Option Value)) (object : α) : Prop where
  back : ∀ {written : List (String × Value)},
    (∀ part ∈ parts, written.lookup part.1 = part.2) → read written = some object
  fits : ∀ part ∈ parts, ∀ value ∈ part.2, value.Fits false depth

theorem Carries.nil (object : α) : Carries depth (fun _ => some object) [] object :=
  ⟨fun _ => rfl, nofun⟩

theorem Carries.single {read : List (String × Value) → Option α} {key : String}
    {value? : Option Value} {object : α}
    (back : ∀ written : List (String × Value), written.lookup key = value? →
      read written = some object)
    (fits : ∀ value ∈ value?, value.Fits false depth) :
    Carries depth read [(key, value?)] object :=
  ⟨fun lookups => back _ (lookups _ List.mem_cons_self), List.forall_mem_singleton.mpr fits⟩

theorem Carries.cons {β : Type} {first : List (String × Value) → Option β} {object : β}
    {part : String × Option Value} {parts : List (String × Option Value)}
    {next : β → List (String × Value) → Option α} {whole : α}
    (carries : Carries depth first [part] object)
    (others : Carries depth (next object) parts whole) :
    Carries depth (fun fields => (first fields).bind fun object => next object fields)
      (part :: parts) whole where
  back := by
    intro written lookups
    rcases List.forall_mem_cons.mp lookups with ⟨lookup, lookups⟩
    rw [carries.back (List.forall_mem_singleton.mpr lookup)]
    exact others.back lookups
  fits := List.forall_mem_cons.mpr ⟨carries.fits part List.mem_cons_self, others.fits⟩

theorem fits_present {parts : List (String × Option Value)} (shallow : depth < deepest)
    (fits : ∀ part ∈ parts, ∀ value ∈ part.2, value.Fits false (depth + 1)) :
    (Value.object (present parts)).Fits false depth := by
  refine .object shallow fun member among => ?_
  rcases List.mem_filterMap.mp among with ⟨part, held, equal⟩
  rcases Option.map_eq_some_iff.mp equal with ⟨value, written, rfl⟩
  exact fits part held value written

theorem Carries.back_present {known : List String} {read : List (String × Value) → Option α}
    {parts : List (String × Option Value)} {object : α} (carries : Carries depth read parts object)
    (keys : parts.map Prod.fst = known) (front : List (String × Option Value))
    (distinct : ((front ++ parts).map Prod.fst).Nodup) :
    (members known (.object (present (front ++ parts)))).bind read = some object := by
  subst keys
  rcases exists_keyed_present (parts.map Prod.fst) distinct with ⟨kept, found, lookups⟩
  have known : members (parts.map Prod.fst) (.object (present (front ++ parts))) = some kept :=
    found
  rw [known]
  exact carries.back fun part among =>
    lookups part (List.mem_append_right _ among) (List.mem_map_of_mem among)

/-- Whether the members that are written inside `depth` containers carry what is read from them,
each known key one part. -/
def Recorded (depth : Nat) (known : List String) (read : List (String × Value) → Option α)
    (written : α → List (String × Value)) : Prop :=
  ∀ (fields : List (String × Value)) (object : α),
    (∀ member ∈ fields, member.2.Fits true depth) → read fields = some object →
    ∃ parts, Carries depth read parts object ∧ written object = present parts ∧
      parts.map Prod.fst = known

theorem Recorded.survives {known : List String} {read : List (String × Value) → Option α}
    {written : α → List (String × Value)} (recorded : Recorded (depth + 1) known read written)
    (distinct : known.Nodup) {value : Value} {object : α} (fits : value.Fits true depth)
    (decoded : (members known value).bind read = some object) :
    Survives (fun value => (members known value).bind read)
      (fun object => .object (written object)) depth object := by
  rcases Option.bind_eq_some_iff.mp decoded with ⟨fields, found, decoded⟩
  rcases fits_of_members fits found with ⟨shallow, inside⟩
  rcases recorded fields object inside decoded with ⟨parts, carries, encoded, keys⟩
  refine ⟨?_, ?_⟩
  · rw [encoded]
    exact carries.back_present keys [] (keys ▸ distinct)
  · rw [encoded]
    exact fits_present shallow carries.fits

theorem faithful_of_recorded {known : List String} {read : List (String × Value) → Option α}
    {written : α → List (String × Value)} (distinct : known.Nodup)
    (recorded : ∀ depth, Recorded (depth + 1) known read written) :
    Faithful (fun value => (members known value).bind read)
      (fun object => .object (written object)) :=
  ⟨fun fits decoded => Recorded.survives (recorded _) distinct fits decoded, rfl⟩

/-! ## Choices -/

theorem fits_choice {holes : Bool} {key : String} {value : Value} :
    (Value.object [(key, value)]).Fits holes depth ↔
      depth < deepest ∧ value.Fits holes (depth + 1) := by
  constructor
  · intro fits
    cases fits with
    | object shallow each => exact ⟨shallow, each _ List.mem_cons_self⟩
  · rintro ⟨shallow, fits⟩
    exact .object shallow (List.forall_mem_singleton.mpr fits)

theorem survives_choice {β : Type} {decodeWhole : Decoder β} {encodeWhole : β → Value}
    {wrap : α → β} {key : String}
    {value : Value} {whole : β} (fits : (Value.object [(key, value)]).Fits true depth)
    (decoded : (decode value).map wrap = some whole)
    (survives : ∀ {depth value object}, value.Fits true depth → decode value = some object →
      Survives decode encode depth object)
    (reads : ∀ value, decodeWhole (.object [(key, value)]) = (decode value).map wrap)
    (writes : ∀ object, encodeWhole (wrap object) = .object [(key, encode object)]) :
    Survives decodeWhole encodeWhole depth whole := by
  rcases Option.map_eq_some_iff.mp decoded with ⟨object, found, rfl⟩
  rcases fits_choice.mp fits with ⟨shallow, inside⟩
  have part := survives inside found
  refine ⟨?_, ?_⟩
  · rw [writes, reads, part.back, Option.map_some]
  · rw [writes]
    exact fits_choice.mpr ⟨shallow, part.fits⟩

/-! ## Required, optional and defaulted members -/

variable {fields : List (String × Value)} {key : String}

theorem carries_required (faithful : Faithful decode encode)
    (fits : ∀ member ∈ fields, member.2.Fits true depth) {object : α}
    (found : required key decode fields = some object) :
    Carries depth (required key decode) [(key, some (encode object))] object := by
  rcases Option.bind_eq_some_iff.mp found with ⟨value, member, decoded⟩
  have survives := faithful.survives (fits _ (mem_of_lookup member)) decoded
  refine .single (fun _ written => ?_) (fun value equal => Option.some.inj equal ▸ survives.fits)
  rw [required, written]
  exact survives.back

theorem nullable_of_survives (faithful : Faithful decode encode) {object : α}
    (survives : Survives decode encode depth object) :
    nullable decode (encode object) = some (some object) := by
  have back := survives.back
  unfold nullable
  split
  case h_1 null =>
    rw [null, faithful.notNull] at back
    cases back
  case h_2 => rw [back, Option.map_some]

theorem carries_optional (faithful : Faithful decode encode)
    (fits : ∀ member ∈ fields, member.2.Fits true depth) {object? : Option α}
    (found : Decode.optional key decode fields = some object?) :
    Carries depth (Decode.optional key decode) [(key, object?.map encode)] object? := by
  have survives : ∀ object ∈ object?, Survives decode encode depth object := by
    intro object equal
    cases equal
    unfold Decode.optional at found
    split at found
    case h_1 => cases found
    case h_2 value member =>
      unfold nullable at found
      split at found
      case h_1 => cases found
      case h_2 =>
        rcases Option.map_eq_some_iff.mp found with ⟨_, decoded, equal⟩
        cases equal
        exact faithful.survives (fits _ (mem_of_lookup member)) decoded
  refine .single (fun _ written => ?_) (fun value equal => ?_)
  · rw [Decode.optional, written]
    cases object? with
    | none => rfl
    | some object => exact nullable_of_survives faithful (survives object rfl)
  · rcases Option.map_eq_some_iff.mp equal with ⟨object, held, rfl⟩
    exact (survives object held).fits

theorem survives_of_defaulted (faithful : Faithful decode encode)
    (fits : ∀ member ∈ fields, member.2.Fits true depth) {default object : α}
    (found : defaulted key default decode fields = some object) :
    object = default ∨ Survives decode encode depth object := by
  unfold defaulted at found
  split at found
  case h_1 =>
    cases found
    exact .inl rfl
  case h_2 value member => exact .inr (faithful.survives (fits _ (mem_of_lookup member)) found)

theorem carries_defaulted (faithful : Faithful decode encode)
    (fits : ∀ member ∈ fields, member.2.Fits true depth) {default object : α}
    (missing : Survives decode encode depth default)
    (found : defaulted key default decode fields = some object) :
    Carries depth (defaulted key default decode) [(key, some (encode object))] object := by
  have survives : Survives decode encode depth object := by
    rcases survives_of_defaulted faithful fits found with rfl | survives
    · exact missing
    · exact survives
  refine .single (fun _ written => ?_) (fun value equal => Option.some.inj equal ▸ survives.fits)
  rw [defaulted, written]
  exact survives.back

theorem carries_defaulted_unless (faithful : Faithful decode encode)
    (fits : ∀ member ∈ fields, member.2.Fits true depth) {default object : α} {omitted : Bool}
    (omits : omitted = true ↔ object = default)
    (found : defaulted key default decode fields = some object) :
    Carries depth (defaulted key default decode)
      [(key, unlessOmitted omitted (encode object))] object := by
  cases omitted with
  | true =>
      refine .single (fun _ written => ?_) nofun
      rw [defaulted, written, omits.mp rfl]
      rfl
  | false =>
      rcases survives_of_defaulted faithful fits found with equal | survives
      · exact absurd (omits.mpr equal) Bool.false_ne_true
      · refine .single (fun _ written => ?_)
          (fun value equal => Option.some.inj equal ▸ survives.fits)
        rw [defaulted, written]
        exact survives.back

theorem carries_list (faithful : Faithful decode encode)
    (fits : ∀ member ∈ fields, member.2.Fits true depth) {objects : List α}
    (found : defaulted key [] (list decode) fields = some objects) :
    Carries depth (defaulted key [] (list decode))
      [(key, unlessOmitted objects.isEmpty (.array (objects.map encode)))] objects :=
  carries_defaulted_unless (faithful_list faithful) fits List.isEmpty_iff found

end

end SchemaDdl.Json
