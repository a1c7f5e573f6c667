import SchemaDdl.Proofs.Number.Basin
import SchemaDdl.Proofs.Number.Finite

/-!
# Numbers from zero to one

Rounding takes no proper fraction past one, because on its grid a fraction has at most 53 bits above
the binary point. So what is left of one when a share is taken away is again a number from zero to
one.
-/

namespace SchemaDdl

namespace Ratio

theorem div_eq_floor (ratio : Ratio) : ratio.numerator / ratio.denominator = ⌊ratio.value⌋₊ :=
  (Nat.floor_div_eq_div (K := ℚ) _ _).symm

theorem value_lt_two_zpow {ratio : Ratio} (denominator : ratio.denominator ≠ 0) :
    ratio.value < 2 ^ ((ratio.numerator.log2 : Int) - ratio.denominator.log2 + 1) := by
  have below : (ratio.numerator : ℚ) < 2 ^ (ratio.numerator.log2 + 1) := by
    exact_mod_cast Nat.lt_log2_self
  have above : (2 : ℚ) ^ ratio.denominator.log2 ≤ ratio.denominator := by
    exact_mod_cast Nat.log2_self_le denominator
  calc ratio.value
      < 2 ^ (ratio.numerator.log2 + 1) / 2 ^ ratio.denominator.log2 :=
        div_lt_div₀ below above (by positivity) (by positivity)
    _ = 2 ^ (((ratio.numerator.log2 + 1 : Nat) : Int) - ratio.denominator.log2) := by
        rw [zpow_sub₀ (by norm_num), zpow_natCast, zpow_natCast]
    _ = 2 ^ ((ratio.numerator.log2 : Int) - ratio.denominator.log2 + 1) := by
        congr 1
        push_cast
        ring

end Ratio

namespace Binary64

/-! ## Proper fractions -/

section

variable {ratio : Ratio}

theorem floor_gridExponent_lt (denominator : ratio.denominator ≠ 0) :
    (ratio.divPowTwo (gridExponent ratio)).numerator
      / (ratio.divPowTwo (gridExponent ratio)).denominator < 2 ^ 53 := by
  have bound := Ratio.value_lt_two_zpow denominator
  unfold gridExponent
  dsimp only
  generalize (ratio.numerator.log2 : Int) - ratio.denominator.log2 = length at bound ⊢
  -- The guess may be one too small, and is kept only where the fraction fits.
  have coarser {exponent : Int} (above : length - 53 < exponent) :
      (ratio.divPowTwo exponent).numerator / (ratio.divPowTwo exponent).denominator < 2 ^ 53 := by
    rw [Ratio.div_eq_floor, Nat.floor_lt (Ratio.value_nonneg _)]
    calc (ratio.divPowTwo exponent).value
        = ratio.value / 2 ^ exponent := Ratio.value_divPowTwo ratio exponent
      _ < 2 ^ (length + 1) / 2 ^ exponent := by gcongr
      _ = 2 ^ (length + 1 - exponent) := (zpow_sub₀ (by norm_num) _ _).symm
      _ ≤ 2 ^ (53 : Int) := zpow_le_zpow_right₀ (by norm_num) (by omega)
      _ = ((2 ^ 53 : Nat) : ℚ) := by norm_num
  split
  case isTrue fits =>
    rcases le_total (-1074) (length - 53) with normal | small
    · rw [max_eq_left normal]
      exact fits
    · rcases small.lt_or_eq with below | least
      · exact coarser (lt_max_of_lt_right below)
      · rw [least, max_self, ← least]
        exact fits
  case isFalse => exact coarser (lt_max_of_lt_left (Int.lt_succ _))

theorem gridExponent_le_of_lt (numerator : ratio.numerator ≠ 0)
    (proper : ratio.numerator < ratio.denominator) : gridExponent ratio ≤ -53 := by
  have logs : ratio.numerator.log2 ≤ ratio.denominator.log2 := by
    rw [Nat.le_log2 (by omega)]
    exact (Nat.log2_self_le numerator).trans proper.le
  rcases logs.lt_or_eq with less | equal
  · simp only [gridExponent]
    split <;> omega
  · have guess : (ratio.numerator.log2 : Int) - ratio.denominator.log2 - 53 = -53 := by omega
    have fits : (ratio.divPowTwo (-53)).numerator / (ratio.divPowTwo (-53)).denominator <
        Nat.pow 2 53 := by
      show ratio.numerator * 2 ^ 53 / ratio.denominator < 2 ^ 53
      rw [Nat.div_lt_iff_lt_mul (by omega), Nat.mul_comm]
      exact Nat.mul_lt_mul_of_pos_left proper (by norm_num)
    simp only [gridExponent, guess, if_pos fits]
    decide

theorem gridExponent_of_eq (denominator : ratio.denominator ≠ 0)
    (whole : ratio.numerator = ratio.denominator) : gridExponent ratio = -52 := by
  have guess : (ratio.numerator.log2 : Int) - ratio.denominator.log2 - 53 = -53 := by
    rw [whole]
    omega
  have full : (ratio.divPowTwo (-53)).numerator / (ratio.divPowTwo (-53)).denominator =
      2 ^ 53 := by
    show ratio.numerator * 2 ^ 53 / ratio.denominator = 2 ^ 53
    rw [whole, Nat.mul_div_cancel_left _ (Nat.pos_of_ne_zero denominator)]
  simp only [gridExponent, guess, full]
  decide

def oneBits : Nat :=
  1023 * 2 ^ 52

theorem roundMagnitude_le_oneBits (denominator : ratio.denominator ≠ 0)
    (proper : ratio.numerator ≤ ratio.denominator) : roundMagnitude ratio ≤ oneBits := by
  rw [roundMagnitude]
  split
  case isTrue => exact Nat.zero_le _
  case isFalse numerator =>
    refine (Nat.min_le_right _ _).trans ?_
    -- Below one the grid is finer than that of one; rounding up ends where the next grid begins.
    rcases proper.lt_or_eq with less | equal
    · have exponent := gridExponent_le_of_lt numerator less
      have rounded := Ratio.round_le (ratio.divPowTwo (gridExponent ratio))
      have bits := floor_gridExponent_lt denominator
      have steps : (gridExponent ratio + 1074).toNat ≤ 1021 := by omega
      have scaled := Nat.mul_le_mul_right (2 ^ 52) steps
      unfold oneBits
      calc (gridExponent ratio + 1074).toNat * Nat.pow 2 52
            + (ratio.divPowTwo (gridExponent ratio)).round
          ≤ 1021 * 2 ^ 52 + 2 ^ 53 := Nat.add_le_add scaled (rounded.trans bits)
        _ = 1023 * 2 ^ 52 := by norm_num
    · have rounded : (ratio.divPowTwo (-52)).round = 2 ^ 52 := by
        show (Ratio.mk (ratio.numerator * 2 ^ 52) ratio.denominator).round = 2 ^ 52
        have positive := Nat.pos_of_ne_zero denominator
        simp only [Ratio.round, equal, Nat.mul_div_cancel_left _ positive, Nat.mul_mod_right]
        rw [if_pos positive]
      rw [gridExponent_of_eq denominator equal, rounded]
      decide

end

/-! ## Numbers from zero to one -/

structure InUnit (number : Binary64) : Prop where
  unsigned : number.isNegative = false
  small : number.magnitudeBits ≤ oneBits

/-- A finite number as a rational one. -/
def value (number : Binary64) : ℚ :=
  if number.isNegative then -number.magnitude.value else number.magnitude.value

theorem valueAt_strictMono : StrictMono valueAt := by
  refine strictMono_nat_of_lt_succ fun bits => ?_
  have spacing : (0 : ℚ) < 2 ^ exponentAt bits := by positivity
  rw [valueAt_succ]
  linarith

theorem valueAt_oneBits : valueAt oneBits = 1 := by
  have significand : significandAt oneBits = 2 ^ 52 := by decide
  have exponent : exponentAt oneBits = -52 := by decide
  rw [valueAt, significand, exponent]
  norm_num

theorem isNegative_ofMagnitude_false {magnitude : Nat} (small : magnitude < 2 ^ 63) :
    (ofMagnitude false magnitude).isNegative = false := by
  simp only [ofMagnitude, isNegative, UInt64.toNat_ofNat', Nat.pow_eq, Bool.false_eq_true, if_false,
    decide_eq_false_iff_not]
  omega

theorem inUnit_ofRatio {ratio : Ratio} (denominator : ratio.denominator ≠ 0)
    (proper : ratio.numerator ≤ ratio.denominator) : (ofRatio false ratio).InUnit := by
  have bits := roundMagnitude_le_oneBits denominator proper
  have range : oneBits < 2 ^ 63 := by decide
  refine ⟨isNegative_ofMagnitude_false (bits.trans_lt range), ?_⟩
  rw [ofRatio, magnitudeBits_ofMagnitude false (bits.trans_lt range)]
  exact bits

namespace InUnit

variable {number : Binary64}

theorem isFinite (unit : number.InUnit) : number.isFinite = true :=
  decide_eq_true (unit.small.trans_lt (by decide))

theorem magnitude_le_one (unit : number.InUnit) : number.magnitude.value ≤ 1 := by
  rw [value_magnitude, ← valueAt_oneBits]
  exact valueAt_strictMono.monotone unit.small

theorem value_eq (unit : number.InUnit) : number.value = number.magnitude.value := by
  rw [value, unit.unsigned]
  rfl

theorem value_mem (unit : number.InUnit) : 0 ≤ number.value ∧ number.value ≤ 1 := by
  rw [unit.value_eq]
  exact ⟨Ratio.value_nonneg _, unit.magnitude_le_one⟩

theorem totalLE_iff {left right : Binary64} (leftUnit : left.InUnit) (rightUnit : right.InUnit) :
    left.totalLE right = true ↔ left.value ≤ right.value := by
  rw [leftUnit.value_eq, rightUnit.value_eq, value_magnitude, value_magnitude,
    valueAt_strictMono.le_iff_le, totalLE, rank, rank, leftUnit.unsigned, rightUnit.unsigned,
    decide_eq_true_eq]
  exact Int.ofNat_le

theorem complement (unit : number.InUnit) : number.complement.InUnit := by
  have positive : 0 < number.magnitude.denominator :=
    Ratio.denominator_divPowTwo_pos Nat.one_pos _
  have proper : number.magnitude.numerator ≤ number.magnitude.denominator := by
    have bound := unit.magnitude_le_one
    rw [Ratio.value, div_le_one (by exact_mod_cast positive)] at bound
    exact_mod_cast bound
  have unsigned : decide ((number.magnitude.denominator : Int) - number.magnitude.numerator < 0) =
      false := decide_eq_false (by omega)
  rw [Binary64.complement, unsigned]
  exact inUnit_ofRatio positive.ne' (by simp only; omega)

end InUnit

end Binary64

end SchemaDdl
