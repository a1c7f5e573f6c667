import Mathlib.Algebra.Order.Field.Rat
import Mathlib.Algebra.Order.Ring.Abs
import Mathlib.Tactic.FieldSimp
import Mathlib.Tactic.Linarith
import SchemaDdl.Proofs.DeclaredType.Preorder
import SchemaDdl.Proofs.DeclaredType.Spelling

/-!
# Values of declared types

A declared type stands for a set of values. A change that is called widening keeps them, except in
two corners: decimals that have more places behind the point than digits, and instants whose digits
are not looked at.
-/

namespace SchemaDdl

/-! ## Sets of values -/

inductive StoredValue where
  | number (value : ℚ)
  | text (value : String)
  | instant (seconds : ℚ)

/-- The values of a type: whole numbers of some bits; decimals of a precision and a scale, or all of
them; texts of a greatest length, or all of them; instants with some digits after the second. -/
inductive ValueSet where
  | integers (bits : Nat)
  | decimals (places : Option (Nat × Nat))
  | texts (limit : Option Nat)
  | instants (digits : Nat)

namespace ValueSet

inductive Holds : ValueSet → StoredValue → Prop
  | whole {bits : Nat} {value : ℤ} (lower : -2 ^ (bits - 1) ≤ value)
      (upper : value < 2 ^ (bits - 1)) : Holds (.integers bits) (.number value)
  | decimal (unscaled : ℤ) (scale : ℕ) :
      Holds (.decimals none) (.number (unscaled / 10 ^ scale))
  | fixed {precision scale : Nat} {unscaled : ℤ} (bounded : |unscaled| < 10 ^ precision) :
      Holds (.decimals (some (precision, scale))) (.number (unscaled / 10 ^ scale))
  | text {limit : Option Nat} {value : String} (fits : ∀ most ∈ limit, value.length ≤ most) :
      Holds (.texts limit) (.text value)
  | instant {digits : Nat} (ticks : ℤ) : Holds (.instants digits) (.instant (ticks / 10 ^ digits))

/-- Whether all values of one set are values of another. -/
def Within (before after : ValueSet) : Prop :=
  ∀ value, before.Holds value → after.Holds value

/-- Whether there are no fewer places before the point of decimals, if there are any digits at all,
and no fewer digits behind the seconds of instants. -/
def LeavesRoom : ValueSet → ValueSet → Prop
  | .decimals (some (precision, scale)), .decimals (some (newPrecision, newScale)) =>
      precision = 0 ∨ precision + newScale ≤ newPrecision + scale
  | .instants digits, .instants newDigits => digits ≤ newDigits
  | _, _ => True

/-! ## Sets within others -/

variable {bits more precision scale newPrecision newScale digits newDigits : Nat}

theorem Within.refl (values : ValueSet) : values.Within values :=
  fun _ => id

theorem LeavesRoom.refl (values : ValueSet) : values.LeavesRoom values := by
  rcases values with _ | (_ | _) | _ | _ <;> simp [LeavesRoom]

theorem integers_within (fewer : bits ≤ more) : (integers bits).Within (.integers more) := by
  intro value holds
  cases holds with
  | whole lower upper =>
    have wider : (2 : ℤ) ^ (bits - 1) ≤ 2 ^ (more - 1) :=
      pow_le_pow_right₀ (by decide) (Nat.sub_le_sub_right fewer 1)
    apply Holds.whole <;> linarith

theorem integers_within_all : (integers bits).Within (.decimals none) := by
  intro value holds
  cases holds with
  | @whole _ value =>
    have unscaled := Holds.decimal value 0
    rw [pow_zero, div_one] at unscaled
    exact unscaled

theorem decimals_within_all (places : Option (Nat × Nat)) :
    (decimals places).Within (.decimals none) := by
  intro value holds
  cases holds with
  | decimal unscaled scale => exact .decimal unscaled scale
  | fixed => exact .decimal _ _

theorem texts_within {limit newLimit : Option Nat}
    (fits : ∀ room ∈ newLimit, ∃ most ∈ limit, most ≤ room) :
    (texts limit).Within (.texts newLimit) := by
  intro value holds
  cases holds with
  | text short =>
    apply Holds.text
    intro room last
    obtain ⟨most, bound, less⟩ := fits room last
    exact Nat.le_trans (short most bound) less

theorem holds_fixed_iff {value : ℚ} :
    (decimals (some (precision, scale))).Holds (.number value) ↔
      ∃ unscaled : ℤ, |unscaled| < 10 ^ precision ∧ unscaled = value * 10 ^ scale := by
  have positive : (10 : ℚ) ^ scale ≠ 0 := by positivity
  constructor
  · intro holds
    cases holds with
    | @fixed _ _ unscaled bounded => exact ⟨unscaled, bounded, by field_simp⟩
  · rintro ⟨unscaled, bounded, same⟩
    rw [← mul_div_cancel_right₀ value positive, ← same]
    exact .fixed bounded

theorem holds_instant_iff {seconds : ℚ} :
    (instants digits).Holds (.instant seconds) ↔ ∃ ticks : ℤ, ticks = seconds * 10 ^ digits := by
  have positive : (10 : ℚ) ^ digits ≠ 0 := by positivity
  constructor
  · intro holds
    cases holds with
    | instant ticks => exact ⟨ticks, by field_simp⟩
  · rintro ⟨ticks, same⟩
    rw [← mul_div_cancel_right₀ seconds positive, ← same]
    exact .instant ticks

theorem div_mul_pow_of_le (unscaled : ℤ) (longer : scale ≤ newScale) :
    (unscaled / 10 ^ scale * 10 ^ newScale : ℚ) = (unscaled * 10 ^ (newScale - scale) : ℤ) := by
  obtain ⟨places, rfl⟩ := Nat.exists_eq_add_of_le longer
  rw [Nat.add_sub_cancel_left, pow_add]
  push_cast
  field_simp

theorem pow_lt_pow_iff {power other : Nat} : (10 : ℤ) ^ power < 10 ^ other ↔ power < other :=
  pow_lt_pow_iff_right₀ (by decide)

theorem abs_pow (power : Nat) : |(10 : ℤ) ^ power| = 10 ^ power :=
  abs_of_pos (by positivity)

theorem integers_within_decimals (room : (2 : ℤ) ^ (bits - 1) < 10 ^ digits)
    (fits : digits + scale ≤ precision) :
    (integers bits).Within (.decimals (some (precision, scale))) := by
  intro value holds
  cases holds with
  | @whole _ value lower upper =>
    have bounded : |value| < 10 ^ digits := by
      rw [abs_lt]
      constructor <;> linarith
    rw [holds_fixed_iff]
    refine ⟨value * 10 ^ scale, ?_, by push_cast; rfl⟩
    calc |value * 10 ^ scale|
      _ = |value| * 10 ^ scale := by rw [abs_mul, abs_pow]
      _ < 10 ^ digits * 10 ^ scale := by gcongr
      _ = 10 ^ (digits + scale) := (pow_add ..).symm
      _ ≤ 10 ^ precision := by
        gcongr
        decide

theorem decimals_within_iff (longer : scale ≤ newScale) :
    (decimals (some (precision, scale))).Within (.decimals (some (newPrecision, newScale))) ↔
      precision = 0 ∨ precision + newScale ≤ newPrecision + scale := by
  constructor
  · intro within
    by_contra fewer
    rw [not_or] at fewer
    -- The greatest power of ten among the old values does not fit.
    have bounded : |(10 : ℤ) ^ (precision - 1)| < 10 ^ precision := by
      rw [abs_pow, pow_lt_pow_iff]
      omega
    obtain ⟨unscaled, fits, same⟩ := holds_fixed_iff.mp (within _ (.fixed bounded))
    rw [div_mul_pow_of_le _ longer, Int.cast_inj] at same
    rw [same, ← pow_add, abs_pow, pow_lt_pow_iff] at fits
    omega
  · intro room value holds
    cases holds with
    | @fixed _ _ unscaled bounded =>
      rw [holds_fixed_iff]
      refine ⟨unscaled * 10 ^ (newScale - scale), ?_, (div_mul_pow_of_le unscaled longer).symm⟩
      rw [abs_mul, abs_pow]
      rcases room with rfl | room
      · rw [pow_zero, Int.abs_lt_one_iff] at bounded
        rw [bounded, abs_zero, zero_mul]
        positivity
      · calc |unscaled| * 10 ^ (newScale - scale)
          _ < 10 ^ precision * 10 ^ (newScale - scale) := by gcongr
          _ = 10 ^ (precision + (newScale - scale)) := (pow_add ..).symm
          _ ≤ 10 ^ newPrecision := by
            gcongr
            · decide
            · omega

theorem instants_within_iff : (instants digits).Within (.instants newDigits) ↔
    digits ≤ newDigits := by
  constructor
  · intro within
    by_contra fewer
    obtain ⟨places, rfl⟩ := Nat.exists_eq_add_of_lt (Nat.lt_of_not_le fewer)
    -- One tick of the old digits would be a whole number of new ones, and divisible by ten.
    obtain ⟨ticks, same⟩ := holds_instant_iff.mp (within _ (.instant 1))
    have apart : ticks * 10 ^ places * 10 = 1 := by
      have quotient : (ticks * 10 ^ places * 10 : ℚ) = 1 := by
        rw [same, pow_add, pow_add]
        field_simp
        norm_num
      exact_mod_cast quotient
    omega
  · intro more value holds
    cases holds with
    | instant ticks =>
      rw [holds_instant_iff]
      exact ⟨ticks * 10 ^ (newDigits - digits), (div_mul_pow_of_le ticks more).symm⟩

end ValueSet

/-! ## Values of a declared type -/

inductive ValueKind where
  | integer (bits : Nat)
  | decimal
  | text
  | varchar
  | instant
deriving DecidableEq

namespace ValueKind

def names : List (String × ValueKind) := [
  ("smallint", .integer 16), ("int2", .integer 16),
  ("smallserial", .integer 16), ("serial2", .integer 16),
  ("integer", .integer 32), ("int", .integer 32), ("int4", .integer 32),
  ("serial", .integer 32), ("serial4", .integer 32),
  ("bigint", .integer 64), ("int8", .integer 64),
  ("bigserial", .integer 64), ("serial8", .integer 64),
  ("numeric", .decimal), ("decimal", .decimal),
  ("text", .text),
  ("varchar", .varchar), ("character varying", .varchar),
  ("timestamp", .instant), ("timestamp without time zone", .instant),
  ("timestamptz", .instant), ("timestamp with time zone", .instant)]

/-- The values of a type with modifiers; a missing scale is zero, and an instant has six digits
unless it says otherwise. -/
def values? : ValueKind → (modifiers : List Nat) → Option ValueSet
  | .integer bits, [] => some (.integers bits)
  | .decimal, [] => some (.decimals none)
  | .decimal, [precision] => some (.decimals (some (precision, 0)))
  | .decimal, [precision, scale] => some (.decimals (some (precision, scale)))
  | .text, [] => some (.texts none)
  | .varchar, [] => some (.texts none)
  | .varchar, [limit] => some (.texts (some limit))
  | .instant, [] => some (.instants 6)
  | .instant, [digits] => some (.instants digits)
  | _, _ => none

def ofCanonical? : String → Option ValueKind
  | "smallint" | "smallserial" => some (.integer 16)
  | "integer" | "serial" => some (.integer 32)
  | "bigint" | "bigserial" => some (.integer 64)
  | "numeric" => some .decimal
  | "text" => some .text
  | "varchar" => some .varchar
  | "timestamp" | "timestamptz" => some .instant
  | _ => none

theorem ofCanonical?_of_mem : ∀ entry ∈ names,
    entry.1.toList.any DeclaredType.isBracket = false ∧
      ofCanonical? (DeclaredType.normalized entry.1) = some entry.2 := by
  decide +kernel

variable {kind newKind : ValueKind} {name newName : String} {modifiers newModifiers : List Nat}
  {before after : ValueSet}

theorem integer_of_digits {digits : Nat} (read : ofCanonical? name = some kind)
    (numbered : DeclaredType.integerDigits? name = some digits) :
    ∃ bits, kind = .integer bits ∧ (bits, digits) ∈ [(16, 5), (32, 10), (64, 19)] := by
  unfold ofCanonical? at read
  split at read <;> cases read <;> cases numbered <;> simp

theorem values?_integer {bits : Nat} (read : values? (.integer bits) modifiers = some before) :
    before = .integers bits := by
  cases modifiers <;> cases read
  rfl

theorem values?_decimal (read : values? .decimal modifiers = some before) :
    ∃ places, before = .decimals places ∧
      DeclaredType.decimalPlaces? modifiers =
        places.map fun (precision, scale) => (precision - scale, scale) := by
  rcases modifiers with _ | ⟨precision, _ | ⟨scale, _ | _⟩⟩ <;> cases read
  · exact ⟨none, rfl, rfl⟩
  · exact ⟨some (precision, 0), rfl, rfl⟩
  · exact ⟨some (precision, scale), rfl, rfl⟩

theorem values?_varchar (read : values? .varchar modifiers = some before) :
    before = .texts modifiers.head? := by
  rcases modifiers with _ | ⟨limit, _ | _⟩ <;> cases read <;> rfl

theorem values?_text (read : values? .text modifiers = some before) : before = .texts none := by
  cases modifiers <;> cases read
  rfl

theorem values?_instant (read : values? .instant modifiers = some before) :
    before = .instants (modifiers.headD 6) := by
  rcases modifiers with _ | ⟨digits, _ | _⟩ <;> cases read <;> rfl

/-! ## What widening keeps -/

open DeclaredType

theorem integers_kept {digits room : Nat} (old : values? kind modifiers = some before)
    (new : values? newKind newModifiers = some after) (reads : ofCanonical? name = some kind)
    (readsNew : ofCanonical? newName = some newKind) (numbered : integerDigits? name = some digits)
    (numberedNew : integerDigits? newName = some room) (fits : digits ≤ room) :
    before.Within after := by
  obtain ⟨bits, rfl, size⟩ := integer_of_digits reads numbered
  obtain ⟨more, rfl, sizeNew⟩ := integer_of_digits readsNew numberedNew
  cases values?_integer old
  cases values?_integer new
  apply ValueSet.integers_within
  simp only [List.mem_cons, Prod.mk.injEq, List.not_mem_nil, or_false] at size sizeNew
  omega

theorem integers_kept_as_decimals {digits : Nat} (old : values? kind modifiers = some before)
    (new : values? .decimal newModifiers = some after) (reads : ofCanonical? name = some kind)
    (numbered : integerDigits? name = some digits) (fits : holdsDigits digits newModifiers = true) :
    before.Within after := by
  obtain ⟨bits, rfl, size⟩ := integer_of_digits reads numbered
  obtain ⟨places, rfl, room⟩ := values?_decimal new
  cases values?_integer old
  rw [holdsDigits_iff, room] at fits
  cases places with
  | none => exact ValueSet.integers_within_all
  | some places =>
    have most : digits ≤ places.1 - places.2 := fits _ rfl
    simp only [List.mem_cons, Prod.mk.injEq, List.not_mem_nil, or_false] at size
    have bounded : (2 : ℤ) ^ (bits - 1) < 10 ^ digits := by
      rcases size with ⟨rfl, rfl⟩ | ⟨rfl, rfl⟩ | ⟨rfl, rfl⟩ <;> decide
    apply ValueSet.integers_within_decimals bounded
    omega

theorem decimals_kept_iff (old : values? .decimal modifiers = some before)
    (new : values? .decimal newModifiers = some after)
    (fits : decimalFits modifiers newModifiers = true) :
    before.Within after ↔ before.LeavesRoom after := by
  obtain ⟨places, rfl, room⟩ := values?_decimal old
  obtain ⟨newPlaces, rfl, newRoom⟩ := values?_decimal new
  rw [decimalFits_iff, room, newRoom] at fits
  cases newPlaces with
  | none =>
    apply iff_of_true (ValueSet.decimals_within_all places)
    cases places <;> trivial
  | some newPlaces =>
    obtain ⟨fitted, found, _, longer⟩ := fits _ rfl
    cases places with
    | none => cases found
    | some places =>
      cases found
      exact ValueSet.decimals_within_iff longer

theorem texts_kept (old : values? .varchar modifiers = some before)
    (new : values? .varchar newModifiers = some after)
    (fits : lengthFits modifiers newModifiers = true) : before.Within after := by
  cases values?_varchar old
  cases values?_varchar new
  exact ValueSet.texts_within (lengthFits_iff.mp fits)

theorem kept_iff_of_widens (old : values? kind modifiers = some before)
    (new : values? newKind newModifiers = some after) (reads : ofCanonical? name = some kind)
    (readsNew : ofCanonical? newName = some newKind)
    (wider : widens name modifiers newName newModifiers = true) :
    before.Within after ↔ before.LeavesRoom after := by
  cases numbered : integerDigits? name with
  | some digits =>
    obtain ⟨bits, rfl, _⟩ := integer_of_digits reads numbered
    have room : before.LeavesRoom after := by
      cases values?_integer old
      trivial
    apply iff_of_true _ room
    rcases (widens_of_digits numbered).mp wider with ⟨more, numberedNew, fits⟩ | ⟨rfl, fits⟩
    · exact integers_kept old new reads readsNew numbered numberedNew fits
    · cases readsNew
      exact integers_kept_as_decimals old new reads numbered fits
  | none =>
    -- Of the six ways to widen, the four below are those of types that are read here.
    rcases (widens_of_unnumbered numbered).mp wider with ⟨rfl, rfl⟩ | ⟨rfl, rfl⟩ | ⟨rfl, rfl⟩ |
      ⟨⟨rfl, rfl⟩, fits⟩ | ⟨⟨rfl, rfl⟩, fits⟩ | ⟨⟨rfl, rfl⟩, fits⟩ <;>
      cases reads <;> cases readsNew
    · cases values?_instant old
      cases values?_instant new
      exact ValueSet.instants_within_iff
    · cases values?_varchar old
      cases values?_text new
      exact iff_of_true (ValueSet.texts_within (by simp)) trivial
    · apply iff_of_true (texts_kept old new fits)
      cases values?_varchar old
      trivial
    · exact decimals_kept_iff old new fits

end ValueKind

/-! ## Declared types -/

/-- Whether a declared type spells a name of a type with modifiers that stand for some values. -/
def ValueSet.DeclaredAs (values : ValueSet) (declared : String) : Prop :=
  ∃ entry ∈ ValueKind.names, ∃ modifiers, DeclaredType.Spells declared entry.1 modifiers ∧
    entry.2.values? modifiers = some values

variable {old new declared : String} {before after values : ValueSet}

theorem ValueSet.DeclaredAs.read (spelled : values.DeclaredAs declared) :
    ∃ kind, ValueKind.ofCanonical? (DeclaredType.normalized declared) = some kind ∧
      kind.values? (DeclaredType.modifiers declared) = some values := by
  obtain ⟨entry, listed, modifiers, spells, stands⟩ := spelled
  obtain ⟨plain, canonical⟩ := ValueKind.ofCanonical?_of_mem entry listed
  rw [spells.modifiers_eq, spells.normalized_eq plain]
  exact ⟨entry.2, canonical, stands⟩

/-- A change of a declared type that is called widening keeps every value, unless decimals get
fewer places before their points or instants fewer digits behind their seconds. -/
theorem DeclaredType.isWidening_within_iff (spelled : before.DeclaredAs old)
    (spelledNew : after.DeclaredAs new) (wider : isWidening old new = true) :
    before.Within after ↔ before.LeavesRoom after := by
  obtain ⟨kind, reads, stands⟩ := spelled.read
  obtain ⟨newKind, readsNew, standsNew⟩ := spelledNew.read
  rcases isWidening_iff.mp wider with ⟨sameName, sameModifiers⟩ | wider
  · rw [sameName, readsNew, Option.some_inj] at reads
    rw [sameModifiers, ← reads, standsNew, Option.some_inj] at stands
    rw [stands]
    exact iff_of_true (.refl _) (.refl _)
  · exact ValueKind.kept_iff_of_widens stands standsNew reads readsNew wider

/-! ## Examples -/

namespace ValuesExample

open DeclaredType

theorem spells {declared name : String} (front : List Char) (pieces : List (List Char × List Char))
    (parts : declared.toList =
      front ++ '(' :: ([','].intercalate (pieces.map fun piece => piece.1 ++ piece.2) ++ [')']))
    (named : SpellsName front name) (nonempty : pieces ≠ [])
    (numbers : ∀ piece ∈ pieces, piece.1.all Text.isBlank = true ∧ piece.2 ≠ [] ∧
      piece.2.all Char.isDigit = true ∧ Nat.ofDigitChars 10 piece.2 0 < Nat.pow 2 32) :
    Spells declared name (pieces.map fun piece => Nat.ofDigitChars 10 piece.2 0) := by
  apply Spells.modified parts
  · rw [List.append_nil]
    exact named
  · exact mt List.map_eq_nil_iff.mp nonempty
  · rw [List.forall₂_map_left_iff, List.forall₂_map_right_iff, List.forall₂_same]
    intro piece member
    obtain ⟨blank, filled, digits, small⟩ := numbers piece member
    have number : SpellsNumber (piece.1 ++ (piece.2 ++ [])) (Nat.ofDigitChars 10 piece.2 0) :=
      .of blank rfl (.inl rfl) filled digits rfl small
    rw [List.append_nil] at number
    exact number

theorem spells_int : Spells "Int4" "int4" [] :=
  .bare ⟨by decide, by decide⟩

theorem spells_price : Spells "Decimal (12, 2)" "decimal" [12, 2] :=
  spells "Decimal ".toList [([], ['1', '2']), ([' '], ['2'])] (by decide)
    ⟨by decide, by decide⟩ (by decide) (by decide)

theorem spells_fractions : Spells "numeric(2, 5)" "numeric" [2, 5] :=
  spells "numeric".toList [([], ['2']), ([' '], ['5'])] (by decide)
    ⟨by decide, by decide⟩ (by decide) (by decide)

theorem spells_fewer : Spells "numeric(1, 5)" "numeric" [1, 5] :=
  spells "numeric".toList [([], ['1']), ([' '], ['5'])] (by decide)
    ⟨by decide, by decide⟩ (by decide) (by decide)

theorem spells_precise : Spells "timestamp(6)" "timestamp" [6] :=
  spells "timestamp".toList [([], ['6'])] (by decide)
    ⟨by decide, by decide⟩ (by decide) (by decide)

theorem spells_whole : Spells "timestamptz(0)" "timestamptz" [0] :=
  spells "timestamptz".toList [([], ['0'])] (by decide)
    ⟨by decide, by decide⟩ (by decide) (by decide)

end ValuesExample

open ValuesExample DeclaredType in
theorem isWidening_within_iff_price :
    (ValueSet.integers 32).DeclaredAs "Int4" ∧
      (ValueSet.decimals (some (12, 2))).DeclaredAs "Decimal (12, 2)" ∧
      isWidening "Int4" "Decimal (12, 2)" = true ∧
      (ValueSet.integers 32).Within (.decimals (some (12, 2))) := by
  have before : (ValueSet.integers 32).DeclaredAs "Int4" :=
    ⟨("int4", .integer 32), by decide, [], spells_int, rfl⟩
  have after : (ValueSet.decimals (some (12, 2))).DeclaredAs "Decimal (12, 2)" :=
    ⟨("decimal", .decimal), by decide, [12, 2], spells_price, rfl⟩
  have wider : isWidening "Int4" "Decimal (12, 2)" = true := by decide +kernel
  exact ⟨before, after, wider, (isWidening_within_iff before after wider).mpr trivial⟩

open ValuesExample DeclaredType in
/-- Decimals without a place before the point lose a digit, and instants lose their digits. -/
theorem isWidening_loses_digits :
    ((ValueSet.decimals (some (2, 5))).DeclaredAs "numeric(2, 5)" ∧
      (ValueSet.decimals (some (1, 5))).DeclaredAs "numeric(1, 5)" ∧
      isWidening "numeric(2, 5)" "numeric(1, 5)" = true ∧
      ¬(ValueSet.decimals (some (2, 5))).Within (.decimals (some (1, 5)))) ∧
    (ValueSet.instants 6).DeclaredAs "timestamp(6)" ∧
      (ValueSet.instants 0).DeclaredAs "timestamptz(0)" ∧
      isWidening "timestamp(6)" "timestamptz(0)" = true ∧
      ¬(ValueSet.instants 6).Within (.instants 0) := by
  refine ⟨⟨⟨("numeric", .decimal), by decide, [2, 5], spells_fractions, rfl⟩,
    ⟨("numeric", .decimal), by decide, [1, 5], spells_fewer, rfl⟩, by decide +kernel, ?_⟩,
    ⟨("timestamp", .instant), by decide, [6], spells_precise, rfl⟩,
    ⟨("timestamptz", .instant), by decide, [0], spells_whole, rfl⟩, by decide +kernel, ?_⟩
  · rw [ValueSet.decimals_within_iff (Nat.le_refl 5)]
    decide
  · rw [ValueSet.instants_within_iff]
    decide

end SchemaDdl
