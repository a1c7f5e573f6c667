import Mathlib.Algebra.Order.Field.Power
import Mathlib.Algebra.Order.Floor.Semifield
import Mathlib.Data.List.TakeWhile
import Mathlib.Data.Rat.Floor
import Mathlib.Tactic.Linarith
import Mathlib.Tactic.NormNum
import Mathlib.Tactic.Positivity
import Mathlib.Tactic.Ring
import SchemaDdl.Number.Decimal

/-!
# Basins

The fractions that round to a magnitude lie between two borders, each halfway to a neighbour. The
borders grow with the bits of the magnitude, so no fraction lies in two basins, and the shortest
decimal of a number, which lies in its basin, belongs to no other magnitude.
-/

namespace SchemaDdl

/-! ## Fractions as rational numbers -/

namespace Ratio

def value (ratio : Ratio) : ℚ :=
  ratio.numerator / ratio.denominator

theorem value_nonneg (ratio : Ratio) : 0 ≤ ratio.value :=
  div_nonneg (Nat.cast_nonneg _) (Nat.cast_nonneg _)

theorem value_divPowTwo (ratio : Ratio) (exponent : Int) :
    (ratio.divPowTwo exponent).value = ratio.value / 2 ^ exponent := by
  unfold divPowTwo
  split
  case isTrue nonneg =>
    obtain ⟨power, rfl⟩ := Int.eq_ofNat_of_zero_le nonneg
    simp [value, div_div]
  case isFalse negative =>
    obtain ⟨power, rfl⟩ : ∃ power : Nat, exponent = -power := ⟨(-exponent).toNat, by omega⟩
    simp [value, div_mul_eq_mul_div]

theorem denominator_divPowTwo_pos {ratio : Ratio} (positive : 0 < ratio.denominator)
    (exponent : Int) : 0 < (ratio.divPowTwo exponent).denominator := by
  unfold divPowTwo
  split
  · exact Nat.mul_pos positive (Nat.two_pow_pos _)
  · exact positive

theorem le_iff {left right : Ratio} (leftPositive : 0 < left.denominator)
    (rightPositive : 0 < right.denominator) :
    left.le right = true ↔ left.value ≤ right.value := by
  rw [value, value, div_le_div_iff₀ (by exact_mod_cast leftPositive)
    (by exact_mod_cast rightPositive), le, decide_eq_true_eq]
  exact_mod_cast Iff.rfl

end Ratio

def Decimal.value (decimal : Decimal) : ℚ :=
  Nat.ofDigitChars 10 decimal.digits 0 * 10 ^ (decimal.exponent + 1 - decimal.digits.length)

namespace Binary64

theorem value_gridPoint (count : Nat) (exponent : Int) :
    (gridPoint count exponent).value = count * 10 ^ exponent := by
  unfold gridPoint
  split
  case isTrue nonneg =>
    obtain ⟨power, rfl⟩ := Int.eq_ofNat_of_zero_le nonneg
    simp [Ratio.value]
  case isFalse negative =>
    obtain ⟨power, rfl⟩ : ∃ power : Nat, exponent = -power := ⟨(-exponent).toNat, by omega⟩
    simp [Ratio.value, div_eq_mul_inv]

theorem denominator_gridPoint_pos (count : Nat) (exponent : Int) :
    0 < (gridPoint count exponent).denominator := by
  unfold gridPoint
  split
  · exact Nat.one_pos
  · exact Nat.pow_pos (by decide)

theorem gridFloor_eq_floor (ratio : Ratio) (exponent : Int) :
    gridFloor ratio exponent = ⌊ratio.value / 10 ^ exponent⌋₊ := by
  unfold gridFloor
  split
  case isTrue nonneg =>
    obtain ⟨power, rfl⟩ := Int.eq_ofNat_of_zero_le nonneg
    rw [← Nat.floor_div_eq_div (K := ℚ)]
    simp [Ratio.value, div_div]
  case isFalse negative =>
    obtain ⟨power, rfl⟩ : ∃ power : Nat, exponent = -power := ⟨(-exponent).toNat, by omega⟩
    rw [← Nat.floor_div_eq_div (K := ℚ)]
    simp [Ratio.value, div_mul_eq_mul_div]

theorem gridFloor_mul_le (ratio : Ratio) (exponent : Int) :
    gridFloor ratio exponent * (10 : ℚ) ^ exponent ≤ ratio.value := by
  have unit : (0 : ℚ) < 10 ^ exponent := by positivity
  rw [← le_div_iff₀ unit, gridFloor_eq_floor]
  exact Nat.floor_le (div_nonneg ratio.value_nonneg unit.le)

theorem lt_gridFloor_add_one_mul (ratio : Ratio) (exponent : Int) :
    ratio.value < (gridFloor ratio exponent + 1) * (10 : ℚ) ^ exponent := by
  have unit : (0 : ℚ) < 10 ^ exponent := by positivity
  rw [← div_lt_iff₀ unit, gridFloor_eq_floor]
  exact Nat.lt_floor_add_one _

/-! ## Magnitudes by their bits -/

def exponentAt (bits : Nat) : Int :=
  max (bits / 2 ^ 52 : Nat) 1 - 1075

/-- The significand of a magnitude: its bits without those that count the exponents below its
own. -/
def significandAt (bits : Nat) : Int :=
  bits - (exponentAt bits + 1074) * 2 ^ 52

def valueAt (bits : Nat) : ℚ :=
  significandAt bits * 2 ^ exponentAt bits

def border (bits : Nat) : ℚ :=
  valueAt bits + 2 ^ exponentAt bits / 2

/-- Whether a number rounds to a positive magnitude: it lies between the borders, and on one of them
only for an even magnitude. -/
def RoundsTo (bits : Nat) (value : ℚ) : Prop :=
  if bits % 2 = 0 then border (bits - 1) ≤ value ∧ value ≤ border bits
  else border (bits - 1) < value ∧ value < border bits

theorem exponentAt_succ (bits : Nat) :
    exponentAt (bits + 1) = exponentAt bits ∧ significandAt (bits + 1) = significandAt bits + 1 ∨
      exponentAt (bits + 1) = exponentAt bits + 1 ∧ significandAt (bits + 1) = 2 ^ 52 ∧
        significandAt bits = 2 ^ 53 - 1 := by
  simp only [exponentAt, significandAt]
  omega

theorem valueAt_succ (bits : Nat) : valueAt (bits + 1) = valueAt bits + 2 ^ exponentAt bits := by
  unfold valueAt
  rcases exponentAt_succ bits with ⟨exponent, next⟩ | ⟨exponent, next, last⟩
  · rw [exponent, next]
    push_cast
    ring
  · rw [exponent, next, last, zpow_add_one₀ (by norm_num)]
    push_cast
    ring

theorem border_strictMono : StrictMono border := by
  refine strictMono_nat_of_lt_succ fun bits => ?_
  have below : (0 : ℚ) < 2 ^ exponentAt bits := by positivity
  have above : (0 : ℚ) < 2 ^ exponentAt (bits + 1) := by positivity
  rw [border, border, valueAt_succ]
  linarith

theorem border_pos (bits : Nat) : 0 < border bits := by
  have first : (0 : ℚ) < border 0 := by
    simp only [border, valueAt, significandAt, exponentAt]
    norm_num
  exact first.trans_le (border_strictMono.monotone (Nat.zero_le bits))

theorem RoundsTo.between {bits : Nat} {value : ℚ} (rounds : RoundsTo bits value) :
    border (bits - 1) ≤ value ∧ value ≤ border bits := by
  unfold RoundsTo at rounds
  split at rounds
  · exact rounds
  · exact ⟨rounds.1.le, rounds.2.le⟩

theorem RoundsTo.pos {bits : Nat} {value : ℚ} (rounds : RoundsTo bits value) : 0 < value :=
  (border_pos _).trans_le rounds.between.1

theorem RoundsTo.not_lt {left right : Nat} {value : ℚ} (leftRounds : RoundsTo left value)
    (rightRounds : RoundsTo right value) : ¬left < right := by
  intro less
  have meet : border left = border (right - 1) :=
    le_antisymm (border_strictMono.monotone (by omega))
      (rightRounds.between.1.trans leftRounds.between.2)
  have next : right = left + 1 := by
    have := border_strictMono.injective meet
    omega
  subst next
  unfold RoundsTo at leftRounds rightRounds
  rw [Nat.add_sub_cancel] at rightRounds
  split at leftRounds
  · rw [if_neg (by omega)] at rightRounds
    linarith
  · rw [if_pos (by omega)] at rightRounds
    linarith

theorem RoundsTo.unique {left right : Nat} {value : ℚ} (leftRounds : RoundsTo left value)
    (rightRounds : RoundsTo right value) : left = right :=
  Nat.le_antisymm (Nat.le_of_not_lt (rightRounds.not_lt leftRounds))
    (Nat.le_of_not_lt (leftRounds.not_lt rightRounds))

/-! ## The basin of a number -/

theorem parts_eq (number : Binary64) :
    (number.parts.1 : Int) = significandAt number.magnitudeBits ∧
      number.parts.2 = exponentAt number.magnitudeBits := by
  simp only [parts, significandAt, exponentAt, Nat.pow_eq]
  split <;> omega

theorem significand_lt (number : Binary64) : number.parts.1 < 2 ^ 53 := by
  simp only [parts, Nat.pow_eq]
  split <;> omega

theorem value_magnitude (number : Binary64) :
    number.magnitude.value = valueAt number.magnitudeBits := by
  obtain ⟨significand, exponent⟩ := parts_eq number
  rw [magnitude, Ratio.value_divPowTwo, valueAt, ← exponent, ← significand]
  simp [Ratio.value]

theorem exponentAt_pred (bits : Nat) :
    exponentAt bits =
      if significandAt (bits + 1) = 2 ^ 52 ∧ -1074 < exponentAt (bits + 1) then
        exponentAt (bits + 1) - 1
      else exponentAt (bits + 1) := by
  split
  case isTrue narrow =>
    simp only [exponentAt, significandAt] at narrow ⊢
    omega
  case isFalse wide =>
    simp only [exponentAt, significandAt] at wide ⊢
    omega

theorem value_quarters (quarters : Nat) (exponent : Int) :
    (Ratio.divPowTwo ⟨quarters, 4⟩ (-exponent)).value = quarters / 4 * 2 ^ exponent := by
  rw [Ratio.value_divPowTwo, zpow_neg, div_inv_eq_mul, Ratio.value, Nat.cast_ofNat]

theorem value_basin_low {number : Binary64} {bits : Nat}
    (equal : number.magnitudeBits = bits + 1) : number.basin.low.value = border bits := by
  obtain ⟨significand, exponent⟩ := parts_eq number
  rw [equal] at significand exponent
  have positive : 1 ≤ number.parts.1 := by
    simp only [parts, Nat.pow_eq]
    split <;> omega
  have below : border bits = valueAt (bits + 1) - 2 ^ exponentAt bits / 2 := by
    rw [border, valueAt_succ]
    ring
  rw [below, valueAt, exponentAt_pred bits, ← significand, ← exponent, basin, value_quarters]
  by_cases narrow : number.parts.1 = Nat.pow 2 52 ∧ -1074 < number.parts.2
  · rw [if_pos narrow, if_pos (by exact_mod_cast narrow), zpow_sub_one₀ (by norm_num),
      Nat.cast_sub (by omega)]
    push_cast
    ring
  · rw [if_neg narrow, if_neg (by exact_mod_cast narrow), Nat.cast_sub (by omega)]
    push_cast
    ring

theorem value_basin_high (number : Binary64) :
    number.basin.high.value = border number.magnitudeBits := by
  obtain ⟨significand, exponent⟩ := parts_eq number
  rw [border, valueAt, ← significand, ← exponent, basin, value_quarters]
  push_cast
  ring

theorem holds_basin_iff {number : Binary64} (nonzero : number.magnitudeBits ≠ 0) {ratio : Ratio}
    (positive : 0 < ratio.denominator) :
    number.basin.holds ratio = true ↔ RoundsTo number.magnitudeBits ratio.value := by
  obtain ⟨bits, equal⟩ := Nat.exists_eq_succ_of_ne_zero nonzero
  have low := value_basin_low equal
  have high := value_basin_high number
  have lowPositive : 0 < number.basin.low.denominator :=
    Ratio.denominator_divPowTwo_pos (Nat.succ_pos 3) _
  have highPositive : 0 < number.basin.high.denominator :=
    Ratio.denominator_divPowTwo_pos (Nat.succ_pos 3) _
  have closed : number.basin.closed = decide (number.magnitudeBits % 2 = 0) := by
    have significand := (parts_eq number).1
    have even : number.parts.1 % 2 = 0 ↔ number.magnitudeBits % 2 = 0 := by
      unfold significandAt at significand
      omega
    exact decide_eq_decide.mpr even
  simp only [Basin.holds, closed, decide_eq_true_eq, RoundsTo]
  split
  · rw [Bool.and_eq_true, Ratio.le_iff lowPositive positive, Ratio.le_iff positive highPositive,
      low, high, equal, Nat.succ_sub_one]
  · simp only [Bool.and_eq_true, Bool.not_eq_true', Bool.eq_false_iff, ne_eq,
      Ratio.le_iff positive lowPositive, Ratio.le_iff highPositive positive, not_le, low, high,
      equal, Nat.succ_sub_one]

/-! ## The fewest digits -/

theorem holds_of_onGrid {number : Binary64} {exponent : Int} {count : Nat}
    (found : number.onGrid exponent = some count) :
    number.basin.holds (gridPoint count exponent) = true := by
  unfold onGrid at found
  dsimp only at found
  split at found
  case h_1 lower upper =>
    cases found
    split
    · exact upper
    · exact lower
  case h_2 lower _ =>
    cases found
    exact lower
  case h_3 _ upper =>
    cases found
    exact upper
  case h_4 => cases found

theorem firstGrid_cases {number : Binary64} {fuel count : Nat} {exponent last : Int}
    (found : number.firstGrid fuel exponent = (count, last)) :
    number.basin.holds (gridPoint count last) = true ∨
      count = gridFloor number.magnitude last ∧ last = exponent - fuel := by
  induction fuel generalizing exponent with
  | zero =>
      cases found
      exact .inr ⟨rfl, (sub_zero _).symm⟩
  | succ fuel induction =>
      rw [firstGrid] at found
      cases point : number.onGrid exponent with
      | some count =>
          rw [point] at found
          cases found
          exact .inl (holds_of_onGrid point)
      | none =>
          rw [point] at found
          refine (induction found).imp_right fun finest => ⟨finest.1, ?_⟩
          rw [finest.2]
          push_cast
          ring

theorem leadingExponent_cases (ratio : Ratio) (fuel : Nat) (bound : Int) :
    gridFloor ratio (leadingExponent ratio fuel bound) ≠ 0 ∨
      leadingExponent ratio fuel bound = bound - fuel := by
  induction fuel generalizing bound with
  | zero => exact .inr (sub_zero bound).symm
  | succ fuel induction =>
      rw [leadingExponent]
      split
      case isTrue small =>
        refine (induction (bound - 1)).imp_right fun least => ?_
        rw [least]
        push_cast
        ring
      case isFalse leads => exact .inl leads

theorem ten_zpow_lt_half_spacing (number : Binary64) {bits : Nat}
    (equal : number.magnitudeBits = bits + 1) :
    (10 : ℚ) ^ (leadingExponent number.magnitude 640 309 - 17) < 2 ^ exponentAt bits / 2 := by
  have spacing : (2 : ℚ) ^ exponentAt (bits + 1) / 2 ≤ 2 ^ exponentAt bits := by
    have below : exponentAt (bits + 1) - 1 ≤ exponentAt bits := by
      have := exponentAt_pred bits
      split at this <;> omega
    calc (2 : ℚ) ^ exponentAt (bits + 1) / 2
        = 2 ^ (exponentAt (bits + 1) - 1) := by rw [zpow_sub_one₀ (by norm_num), div_eq_mul_inv]
      _ ≤ 2 ^ exponentAt bits := zpow_le_zpow_right₀ (by norm_num) below
  rcases leadingExponent_cases number.magnitude 640 309 with leads | least
  · -- the leading digit stands at most 53 bits above the last bit of the significand
    have unit : (0 : ℚ) < 2 ^ exponentAt (bits + 1) := by positivity
    have first : (1 : ℚ) ≤
        gridFloor number.magnitude (leadingExponent number.magnitude 640 309) := by
      exact_mod_cast Nat.one_le_iff_ne_zero.mpr leads
    have below := gridFloor_mul_le number.magnitude (leadingExponent number.magnitude 640 309)
    have leading := (le_mul_of_one_le_left (by positivity) first).trans below
    have significand : (significandAt (bits + 1) : ℚ) ≤ 2 ^ 53 := by
      rw [← equal, ← (parts_eq number).1]
      exact_mod_cast (significand_lt number).le
    rw [value_magnitude, valueAt, equal] at leading
    have bound := leading.trans (mul_le_mul_of_nonneg_right significand unit.le)
    rw [zpow_sub₀ (by norm_num)]
    norm_num at bound ⊢
    linarith
  · have exponent : -1074 ≤ exponentAt (bits + 1) := by
      unfold exponentAt
      omega
    have smallest : (2 : ℚ) ^ (-1074 : Int) ≤ 2 ^ exponentAt (bits + 1) :=
      zpow_le_zpow_right₀ (by norm_num) exponent
    have powers : 2 ^ 1074 * 4 < 10 ^ 348 := by decide +kernel
    have finest : (10 : ℚ) ^ (-348 : Int) < 2 ^ (-1074 : Int) / 4 := by
      rw [zpow_neg, zpow_neg, zpow_ofNat, zpow_ofNat, ← one_div, ← one_div, div_div]
      exact one_div_lt_one_div_of_lt (by positivity) (by exact_mod_cast powers)
    rw [least, show (309 - (640 : Nat) - 17 : Int) = -348 from rfl]
    linarith

theorem roundsTo_gridFloor {number : Binary64} (nonzero : number.magnitudeBits ≠ 0) {last : Int}
    (finest : last = leadingExponent number.magnitude 640 309 - 17) :
    RoundsTo number.magnitudeBits (gridFloor number.magnitude last * 10 ^ last) := by
  obtain ⟨bits, equal⟩ := Nat.exists_eq_succ_of_ne_zero nonzero
  have unit := ten_zpow_lt_half_spacing number equal
  have below := gridFloor_mul_le number.magnitude last
  have above := lt_gridFloor_add_one_mul number.magnitude last
  have up : (0 : ℚ) < 2 ^ exponentAt (bits + 1) := by positivity
  rw [← finest] at unit
  rw [value_magnitude, equal] at below above
  rw [valueAt_succ] at above
  have low : border bits < gridFloor number.magnitude last * 10 ^ last := by
    rw [border]
    linarith
  have high : gridFloor number.magnitude last * 10 ^ last < border (bits + 1) := by
    rw [border]
    linarith
  rw [RoundsTo, equal, Nat.succ_sub_one]
  split
  · exact ⟨low.le, high.le⟩
  · exact ⟨low, high⟩

theorem roundsTo_firstGrid {number : Binary64} (nonzero : number.magnitudeBits ≠ 0) {count : Nat}
    {last : Int}
    (found : number.firstGrid 17 (leadingExponent number.magnitude 640 309) = (count, last)) :
    RoundsTo number.magnitudeBits (count * 10 ^ last) := by
  rcases firstGrid_cases found with held | ⟨rfl, finest⟩
  · rw [holds_basin_iff nonzero (denominator_gridPoint_pos _ _), value_gridPoint] at held
    exact held
  · exact roundsTo_gridFloor nonzero finest

theorem exists_dropped_zeros (digits : List Char) :
    ∃ dropped, digits =
      (digits.reverse.dropWhile (· == '0')).reverse ++ List.replicate dropped '0' := by
  have zeros : digits.reverse.takeWhile (· == '0') =
      List.replicate (digits.reverse.takeWhile (· == '0')).length '0' :=
    List.eq_replicate_of_mem fun digit member => by simpa using List.mem_takeWhile_imp member
  refine ⟨(digits.reverse.takeWhile (· == '0')).length, ?_⟩
  rw [← List.reverse_replicate, ← zeros, ← List.reverse_append, List.takeWhile_append_dropWhile,
    List.reverse_reverse]

theorem value_dropped_zeros (count : Nat) (exponent : Int) :
    let digits := Nat.toDigits 10 count
    let kept := (digits.reverse.dropWhile (· == '0')).reverse
    Decimal.value ⟨kept, exponent + digits.length - 1⟩ = count * 10 ^ exponent := by
  intro digits kept
  obtain ⟨dropped, split⟩ : ∃ dropped, digits = kept ++ List.replicate dropped '0' :=
    exists_dropped_zeros digits
  have whole : count = 10 ^ dropped * Nat.ofDigitChars 10 kept 0 := by
    rw [← Nat.ofDigitChars_replicate_zero, ← Nat.ofDigitChars_append, ← split,
      Nat.ofDigitChars_ten_toDigits]
  have power : exponent + digits.length - 1 + 1 - kept.length = exponent + dropped := by
    rw [split, List.length_append, List.length_replicate]
    push_cast
    ring
  rw [Decimal.value, power, zpow_add₀ (by norm_num), zpow_natCast]
  rw [whole]
  push_cast
  ring

theorem roundsTo_shortest {number : Binary64} (nonzero : number.magnitudeBits ≠ 0) :
    RoundsTo number.magnitudeBits number.shortest.value := by
  have zero : number.isZero = false := beq_eq_false_iff_ne.mpr nonzero
  rcases found : number.firstGrid 17 (leadingExponent number.magnitude 640 309) with ⟨count, last⟩
  have shown : number.shortest.value = count * 10 ^ last := by
    simp only [shortest, zero, found]
    exact value_dropped_zeros count last
  rw [shown]
  exact roundsTo_firstGrid nonzero found

theorem value_shortest_of_zero {number : Binary64} (zero : number.magnitudeBits = 0) :
    number.shortest.value = 0 := by
  have isZero : number.isZero = true := beq_iff_eq.mpr zero
  rw [shortest, isZero]
  simp [Decimal.value, Nat.ofDigitChars_cons, Nat.ofDigitChars_nil]

theorem magnitudeBits_eq_of_shortest {left right : Binary64}
    (same : left.shortest.value = right.shortest.value) :
    left.magnitudeBits = right.magnitudeBits := by
  by_cases leftZero : left.magnitudeBits = 0
  · by_cases rightZero : right.magnitudeBits = 0
    · rw [leftZero, rightZero]
    · have positive := (roundsTo_shortest rightZero).pos
      rw [← same, value_shortest_of_zero leftZero] at positive
      exact absurd positive (lt_irrefl 0)
  · by_cases rightZero : right.magnitudeBits = 0
    · have positive := (roundsTo_shortest leftZero).pos
      rw [same, value_shortest_of_zero rightZero] at positive
      exact absurd positive (lt_irrefl 0)
    · have rounds := roundsTo_shortest leftZero
      rw [same] at rounds
      exact rounds.unique (roundsTo_shortest rightZero)

end Binary64

end SchemaDdl
