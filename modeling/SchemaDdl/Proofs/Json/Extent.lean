import Mathlib
import SchemaDdl.Json.Reader
import SchemaDdl.Proofs.Number.Finite

/-!
# The extent of the values that are read

`Value.Fits` says what a value may hold for its text to be read again: containers that are not
nested too deeply, whole numbers of 64 bits and finite other numbers. Every value that the reader
gives fits but for its unreadable parts, and settling it leaves no such part. A settled value is its
own settled value.
-/

namespace SchemaDdl.Json

/-- Whether a value inside `depth` containers keeps the bounds of the reader; `holes` allows
unreadable parts. -/
inductive Value.Fits (holes : Bool) : (depth : Nat) → Value → Prop where
  | null {depth : Nat} : Fits holes depth .null
  | bool {depth : Nat} (value : Bool) : Fits holes depth (.bool value)
  | integer {depth : Nat} {value : Int} (low : -Int.pow 2 63 ≤ value)
      (high : value ≤ largestSignificand) : Fits holes depth (.number (.integer value))
  | float {depth : Nat} {value : Binary64} (finite : value.isFinite = true) :
      Fits holes depth (.number (.float value))
  | string {depth : Nat} (text : String) : Fits holes depth (.string text)
  | array {depth : Nat} {items : List Value} (shallow : depth < deepest)
      (each : ∀ item ∈ items, Fits holes (depth + 1) item) : Fits holes depth (.array items)
  | object {depth : Nat} {members : List (String × Value)} (shallow : depth < deepest)
      (each : ∀ member ∈ members, Fits holes (depth + 1) member.2) :
      Fits holes depth (.object members)
  | unreadable {depth : Nat} (allowed : holes = true) : Fits holes depth .unreadable

theorem natAbs_lt_of_bounds {value : Int} (low : -Int.pow 2 63 ≤ value)
    (high : value ≤ largestSignificand) : value.natAbs < 2 ^ 64 := by
  have bound : Int.pow 2 63 = 9223372036854775808 := by decide
  have limit : largestSignificand = 18446744073709551615 := by decide
  omega

/-! ## Numbers that are read -/

theorem absorb_le {significand : Nat} (digits : List Char)
    (small : significand ≤ largestSignificand) :
    (absorb significand digits).1 ≤ largestSignificand := by
  induction digits generalizing significand with
  | nil => exact small
  | cons digit digits induction =>
      rw [absorb]
      split
      case isTrue next => exact induction next
      case isFalse => exact small

theorem isFinite_ofInt_of_le {significand : Nat} (small : significand ≤ largestSignificand) :
    (Binary64.ofInt significand).isFinite = true :=
  Binary64.isFinite_ofInt (Nat.lt_of_le_of_lt small (by decide))

theorem isFinite_of_ofToken {significand : Nat} {exponent : Int} {value : Binary64}
    (small : significand ≤ largestSignificand)
    (found : Binary64.ofToken significand exponent = some value) : value.isFinite = true := by
  rw [Binary64.ofToken] at found
  dsimp only at found
  split at found
  · cases found
    exact isFinite_ofInt_of_le small
  · split at found
    · cases found
    · split at found
      case isTrue finite =>
        cases found
        exact finite
      case isFalse => cases found

theorem fits_of_number? {holes : Bool} {depth : Nat} {token : Token} {number : Number}
    (found : token.number? = some number) : Value.Fits holes depth (.number number) := by
  have first := absorb_le token.whole (Nat.zero_le largestSignificand)
  rw [Token.number?] at found
  split at found
  rename_i significand dropped absorbed
  rw [absorbed] at first
  dsimp only at first found
  split at found
  case h_1 =>
    have least : (0 : Int) < Int.pow 2 63 := by decide
    split at found
    · cases found
      exact .integer (by omega) (by omega)
    · split at found
      case isTrue bounds =>
        cases found
        have bound : Int.pow 2 63 = ((Nat.pow 2 63 : Nat) : Int) := by decide
        exact .integer (by omega) (by omega)
      case isFalse =>
        cases found
        exact .float (Binary64.isFinite_negate (isFinite_ofInt_of_le first))
  case h_2 fraction _ _ _ =>
    rcases Option.map_eq_some_iff.mp found with ⟨value, token, rfl⟩
    have finite := isFinite_of_ofToken (absorb_le _ first) token
    split
    · exact .float (Binary64.isFinite_negate finite)
    · exact .float finite

theorem fits_numberValue {depth : Nat} (token : Token) :
    Value.Fits true depth (numberValue token) := by
  unfold numberValue
  split
  case h_1 number found => exact fits_of_number? found
  case h_2 => exact .unreadable rfl

/-! ## Values that are read -/

theorem fits_atDepth {depth : Nat} {container : Value}
    (fits : depth < deepest → container.Fits true depth) :
    (atDepth (depth + 1) container).Fits true depth := by
  unfold atDepth
  split
  case isTrue shallow => exact fits shallow
  case isFalse => exact .unreadable rfl

inductive ReadFrom (fuel depth : Nat) (text rest : List Char) : Value → Prop where
  | null : ReadFrom fuel depth text rest .null
  | bool (value : Bool) : ReadFrom fuel depth text rest (.bool value)
  | string (value : String) : ReadFrom fuel depth text rest (.string value)
  | number {negative : Bool} {body : List Char} {token : Token}
      (written : text = if negative then '-' :: body else body)
      (read : readToken negative body = some (token, rest)) :
      ReadFrom fuel depth text rest (numberValue token)
  | array {items : List Value}
      (inside : items = [] ∨ ∃ inner, readItems fuel (depth + 1) inner = some (items, rest)) :
      ReadFrom fuel depth text rest (atDepth (depth + 1) (.array items))
  | object {members : List (String × Value)}
      (inside : members = [] ∨
        ∃ inner, readMembers fuel (depth + 1) inner = some (some members, rest)) :
      ReadFrom fuel depth text rest (atDepth (depth + 1) (.object members))
  | unreadable : ReadFrom fuel depth text rest .unreadable

section

variable {fuel depth : Nat} {text rest : List Char} {value : Value} {items : List Value}
  {members : List (String × Value)}

theorem readFrom_of_readValue (read : readValue (fuel + 1) depth text = some (value, rest)) :
    ReadFrom fuel depth text rest value := by
  rw [readValue.eq_def] at read
  dsimp only at read
  split at read
  · cases read
    exact .null
  · cases read
    exact .bool true
  · cases read
    exact .bool false
  · -- A string, which may have surrogates that stand alone.
    split at read
    · cases read
    · split at read
      · cases read
        exact .string _
      · cases read
        exact .unreadable
  · split at read
    · cases read
      exact .array (.inl rfl)
    · split at read
      · cases read
        exact .array (.inr ⟨_, ‹_›⟩)
      · cases read
  · -- An object, which may have a key that is not readable.
    split at read
    · cases read
      exact .object (.inl rfl)
    · split at read
      · cases read
        exact .object (.inr ⟨_, ‹_›⟩)
      · cases read
        exact .unreadable
      · cases read
  · rcases Option.map_eq_some_iff.mp read with ⟨⟨token, left⟩, found, equal⟩
    cases equal
    exact @ReadFrom.number _ _ _ _ true _ _ rfl found
  · rcases Option.map_eq_some_iff.mp read with ⟨⟨token, left⟩, found, equal⟩
    cases equal
    exact @ReadFrom.number _ _ _ _ false _ _ rfl found

theorem exists_item_of_readItems (read : readItems (fuel + 1) depth text = some (items, rest)) :
    ∃ item left, readValue fuel depth text = some (item, left) ∧
      (items = [item] ∨ ∃ others inner,
        readItems fuel depth inner = some (others, rest) ∧ items = item :: others) := by
  rw [readItems.eq_def] at read
  dsimp only at read
  split at read
  · cases read
  · rename_i item left first
    refine ⟨item, left, first, ?_⟩
    split at read
    · cases read
      exact .inl rfl
    · rcases Option.map_eq_some_iff.mp read with ⟨⟨others, left⟩, found, equal⟩
      cases equal
      exact .inr ⟨others, _, found, rfl⟩
    · cases read

theorem exists_member_of_readMembers
    (read : readMembers (fuel + 1) depth text = some (some members, rest)) :
    ∃ key value inner left, readValue fuel depth inner = some (value, left) ∧
      (members = [(key, value)] ∨ ∃ others more,
        readMembers fuel depth more = some (some others, rest) ∧
          members = (key, value) :: others) := by
  rw [readMembers.eq_def] at read
  dsimp only at read
  split at read
  · split at read
    · cases read
    · split at read
      · split at read
        · cases read
        · rename_i value left first
          split at read
          · rcases Prod.mk.inj (Option.some.inj read) with ⟨single, -⟩
            rcases Option.map_eq_some_iff.mp single with ⟨member, pair, rfl⟩
            rcases Option.map_eq_some_iff.mp pair with ⟨key, _, rfl⟩
            exact ⟨_, value, _, left, first, .inl rfl⟩
          · split at read
            · cases read
            · rename_i others left found
              split at read
              · rename_i member others pair
                rcases Option.map_eq_some_iff.mp pair with ⟨key, _, rfl⟩
                cases read
                exact ⟨_, value, _, _, first, .inr ⟨others, _, found, rfl⟩⟩
              · cases read
          · cases read
      · cases read
  · cases read

end

structure ReadersFit (fuel : Nat) : Prop where
  value : ∀ {depth text value rest}, readValue fuel depth text = some (value, rest) →
    value.Fits true depth
  items : ∀ {depth text items rest}, readItems fuel depth text = some (items, rest) →
    ∀ item ∈ items, item.Fits true depth
  members : ∀ {depth text members rest},
    readMembers fuel depth text = some (some members, rest) →
      ∀ member ∈ members, member.2.Fits true depth

namespace ReadersFit

variable {fuel depth : Nat} {text rest : List Char} {value : Value} {items : List Value}
  {members : List (String × Value)}

theorem value_succ (fit : ReadersFit fuel)
    (read : readValue (fuel + 1) depth text = some (value, rest)) : value.Fits true depth := by
  cases readFrom_of_readValue read with
  | null => exact .null
  | bool value => exact .bool value
  | string value => exact .string value
  | number => exact fits_numberValue _
  | array inside =>
      refine fits_atDepth fun shallow => .array shallow ?_
      rcases inside with rfl | ⟨inner, inside⟩
      · exact nofun
      · exact fit.items inside
  | object inside =>
      refine fits_atDepth fun shallow => .object shallow ?_
      rcases inside with rfl | ⟨inner, inside⟩
      · exact nofun
      · exact fit.members inside
  | unreadable => exact .unreadable rfl

theorem items_succ (fit : ReadersFit fuel)
    (read : readItems (fuel + 1) depth text = some (items, rest)) :
    ∀ item ∈ items, item.Fits true depth := by
  rcases exists_item_of_readItems read with ⟨item, left, first, rfl | ⟨others, inner, more, rfl⟩⟩
  · exact List.forall_mem_singleton.mpr (fit.value first)
  · exact List.forall_mem_cons.mpr ⟨fit.value first, fit.items more⟩

theorem members_succ (fit : ReadersFit fuel)
    (read : readMembers (fuel + 1) depth text = some (some members, rest)) :
    ∀ member ∈ members, member.2.Fits true depth := by
  rcases exists_member_of_readMembers read with
    ⟨key, value, inner, left, first, rfl | ⟨others, more, found, rfl⟩⟩
  · exact List.forall_mem_singleton.mpr (fit.value first)
  · exact List.forall_mem_cons.mpr ⟨fit.value first, fit.members found⟩

end ReadersFit

theorem readersFit (fuel : Nat) : ReadersFit fuel := by
  induction fuel with
  | zero =>
      constructor
      · simp [readValue]
      · simp [readItems]
      · simp [readMembers]
  | succ fuel fit => exact ⟨fit.value_succ, fit.items_succ, fit.members_succ⟩

theorem fits_of_read {text : String} {value : Value} (found : read text = some value) :
    value.Fits true 0 := by
  unfold read at found
  dsimp only at found
  split at found
  case h_1 read =>
    split at found
    case isTrue =>
      cases found
      exact (readersFit _).value read
    case isFalse => cases found
  case h_2 => cases found

/-! ## Settled values -/

theorem exists_of_settleItems {items settled : List Value}
    (found : settleItems items = some settled) {item : Value} (among : item ∈ settled) :
    ∃ source ∈ items, source.settle? = some item := by
  induction items generalizing settled with
  | nil =>
      rw [settleItems] at found
      cases found
      cases among
  | cons first items induction =>
      rw [settleItems] at found
      split at found
      case h_1 head others firstSettled othersSettled =>
        cases found
        rcases List.mem_cons.mp among with rfl | among
        · exact ⟨first, List.mem_cons_self, firstSettled⟩
        · rcases induction othersSettled among with ⟨source, member, equal⟩
          exact ⟨source, List.mem_cons_of_mem _ member, equal⟩
      case h_2 => cases found

theorem mem_insertMember {key : String} {value : Value} {held : List (String × Value)}
    {member : String × Value} (among : member ∈ insertMember key value held) :
    member = (key, value) ∨ member ∈ held := by
  induction held with
  | nil => exact .inl (List.mem_singleton.mp among)
  | cons first held induction =>
      rcases first with ⟨other, value⟩
      rw [insertMember] at among
      split at among
      · exact List.mem_cons.mp among
      · split at among
        · rcases List.mem_cons.mp among with equal | among
          · exact .inl equal
          · exact .inr (List.mem_cons_of_mem _ among)
        · rcases List.mem_cons.mp among with equal | among
          · exact .inr (equal ▸ List.mem_cons_self)
          · exact (induction among).imp_right (List.mem_cons_of_mem _)

theorem exists_of_settleMembers {members held settled : List (String × Value)}
    (found : settleMembers held members = some settled) {member : String × Value}
    (among : member ∈ settled) :
    member ∈ held ∨ ∃ source ∈ members, source.2.settle? = some member.2 := by
  induction members generalizing held with
  | nil =>
      rw [settleMembers] at found
      cases found
      exact .inl among
  | cons first members induction =>
      rcases first with ⟨key, value⟩
      rw [settleMembers] at found
      split at found
      case h_1 settledValue equal =>
        rcases induction found with held | ⟨source, inside, settles⟩
        · rcases mem_insertMember held with rfl | held
          · exact .inr ⟨(key, value), List.mem_cons_self, equal⟩
          · exact .inl held
        · exact .inr ⟨source, List.mem_cons_of_mem _ inside, settles⟩
      case h_2 => cases found

def KeysIncrease (members : List (String × Value)) : Prop :=
  members.Pairwise fun left right => left.1 < right.1

theorem keysIncrease_insertMember {key : String} {value : Value} {held : List (String × Value)}
    (increase : KeysIncrease held) : KeysIncrease (insertMember key value held) := by
  induction held with
  | nil => exact List.pairwise_singleton _ _
  | cons first held induction =>
      rcases first with ⟨other, kept⟩
      rcases List.pairwise_cons.mp increase with ⟨above, rest⟩
      rw [insertMember]
      split
      case isTrue less =>
        refine List.pairwise_cons.mpr ⟨fun member among => ?_, increase⟩
        rcases List.mem_cons.mp among with rfl | among
        · exact less
        · exact String.lt_trans less (above member among)
      case isFalse notLess =>
        split
        case isTrue equal => exact List.pairwise_cons.mpr ⟨equal ▸ above, rest⟩
        case isFalse different =>
          refine List.pairwise_cons.mpr ⟨fun member among => ?_, induction rest⟩
          rcases mem_insertMember among with rfl | among
          · rcases Decidable.em (other < key) with greater | notGreater
            · exact greater
            · exact absurd (String.le_antisymm notGreater notLess) different
          · exact above member among

theorem keysIncrease_of_settleMembers {members held settled : List (String × Value)}
    (increase : KeysIncrease held) (found : settleMembers held members = some settled) :
    KeysIncrease settled := by
  induction members generalizing held with
  | nil =>
      rw [settleMembers] at found
      cases found
      exact increase
  | cons first members induction =>
      rw [settleMembers] at found
      split at found
      case h_1 => exact induction (keysIncrease_insertMember increase) found
      case h_2 => cases found

theorem insertMember_of_above {key : String} {value : Value} {held : List (String × Value)}
    (above : ∀ member ∈ held, member.1 < key) :
    insertMember key value held = held ++ [(key, value)] := by
  induction held with
  | nil => rfl
  | cons first held induction =>
      have less : first.1 < key := above first List.mem_cons_self
      have others := induction fun member among => above member (List.mem_cons_of_mem _ among)
      rw [insertMember, if_neg (String.lt_asymm less), others, List.cons_append]
      exact if_neg fun equal => String.lt_irrefl _ (equal ▸ less)

theorem settleMembers_of_increase {held members : List (String × Value)}
    (increase : KeysIncrease (held ++ members))
    (each : ∀ member ∈ members, member.2.settle? = some member.2) :
    settleMembers held members = some (held ++ members) := by
  induction members generalizing held with
  | nil => rw [settleMembers, List.append_nil]
  | cons first members induction =>
      have above : ∀ member ∈ held, member.1 < first.1 := fun member among =>
        (List.pairwise_append.mp increase).2.2 member among first List.mem_cons_self
      have same : held ++ first :: members = (held ++ [first]) ++ members := by simp
      rw [same] at increase
      rw [settleMembers, each first List.mem_cons_self]
      dsimp only
      rw [insertMember_of_above above, same]
      exact induction increase fun member among => each member (List.mem_cons_of_mem _ among)

theorem settleItems_of_settled {items : List Value}
    (each : ∀ item ∈ items, item.settle? = some item) : settleItems items = some items := by
  induction items with
  | nil => rfl
  | cons first items induction =>
      have others := induction fun item among => each item (List.mem_cons_of_mem _ among)
      rw [settleItems, each first List.mem_cons_self, others]

theorem settled_of_settle? {depth : Nat} {value settled : Value} (fits : value.Fits true depth)
    (found : value.settle? = some settled) :
    settled.Fits false depth ∧ settled.settle? = some settled := by
  induction fits generalizing settled with
  | unreadable => cases found
  | @array depth items shallow _ each =>
      rw [Value.settle?] at found
      rcases Option.map_eq_some_iff.mp found with ⟨settledItems, settles, rfl⟩
      have inside : ∀ item ∈ settledItems,
          item.Fits false (depth + 1) ∧ item.settle? = some item := by
        intro item among
        rcases exists_of_settleItems settles among with ⟨source, member, equal⟩
        exact each source member equal
      refine ⟨.array shallow fun item among => (inside item among).1, ?_⟩
      rw [Value.settle?, settleItems_of_settled fun item among => (inside item among).2]
      rfl
  | @object depth members shallow _ each =>
      rw [Value.settle?] at found
      rcases Option.map_eq_some_iff.mp found with ⟨settledMembers, settles, rfl⟩
      have inside : ∀ member ∈ settledMembers,
          member.2.Fits false (depth + 1) ∧ member.2.settle? = some member.2 := by
        intro member among
        rcases exists_of_settleMembers settles among with none | ⟨source, held, equal⟩
        · cases none
        · exact each source held equal
      refine ⟨.object shallow fun member among => (inside member among).1, ?_⟩
      have increase := keysIncrease_of_settleMembers List.Pairwise.nil settles
      have same : settleMembers [] settledMembers = some ([] ++ settledMembers) :=
        settleMembers_of_increase increase fun member among => (inside member among).2
      rw [Value.settle?, same]
      rfl
  | integer low high =>
      cases found
      exact ⟨.integer low high, rfl⟩
  | float finite =>
      cases found
      exact ⟨.float finite, rfl⟩
  | null | bool | string =>
      cases found
      exact ⟨by constructor, rfl⟩

theorem isSome_settleItems {items : List Value}
    (each : ∀ item ∈ items, item.settle?.isSome = true) : (settleItems items).isSome = true := by
  induction items with
  | nil => rfl
  | cons item items induction =>
      have first := each item List.mem_cons_self
      have others := induction fun item among => each item (List.mem_cons_of_mem _ among)
      rcases Option.isSome_iff_exists.mp first with ⟨_, first⟩
      rcases Option.isSome_iff_exists.mp others with ⟨_, others⟩
      rw [settleItems, first, others]
      rfl

theorem isSome_settleMembers {held members : List (String × Value)}
    (each : ∀ member ∈ members, member.2.settle?.isSome = true) :
    (settleMembers held members).isSome = true := by
  induction members generalizing held with
  | nil => rfl
  | cons member members induction =>
      rcases Option.isSome_iff_exists.mp (each member List.mem_cons_self) with ⟨_, first⟩
      rw [settleMembers, first]
      exact induction fun member among => each member (List.mem_cons_of_mem _ among)

theorem isSome_settle? {depth : Nat} {value : Value} (fits : value.Fits false depth) :
    value.settle?.isSome = true := by
  induction fits with
  | unreadable allowed => cases allowed
  | array _ _ each =>
      rw [Value.settle?, Option.isSome_map]
      exact isSome_settleItems each
  | object _ _ each =>
      rw [Value.settle?, Option.isSome_map]
      exact isSome_settleMembers each
  | null | bool | string | integer | float => rfl

end SchemaDdl.Json
