import Mathlib
import SchemaDdl.Number.Decimal

/-!
# Finite numbers

Whole numbers of at most 64 bits lie far inside the range of binary floating-point numbers, and
putting another sign in front of a finite number keeps it finite.
-/

namespace SchemaDdl

theorem Ratio.round_le (ratio : Ratio) :
    ratio.round ≤ ratio.numerator / ratio.denominator + 1 := by
  simp only [Ratio.round]
  split
  · omega
  · split
    · omega
    · split <;> omega

namespace Binary64

theorem magnitudeBits_ofMagnitude (negative : Bool) {magnitude : Nat}
    (small : magnitude < Nat.pow 2 63) :
    (ofMagnitude negative magnitude).magnitudeBits = magnitude := by
  simp only [Nat.pow_eq] at small
  cases negative with
  | false =>
      simp only [ofMagnitude, magnitudeBits, UInt64.toNat_ofNat', Nat.pow_eq]
      simp only [Bool.false_eq_true, if_false]
      omega
  | true =>
      simp only [ofMagnitude, magnitudeBits, UInt64.toNat_ofNat', Nat.pow_eq]
      simp only [if_true]
      omega

theorem isFinite_ofMagnitude (negative : Bool) {magnitude : Nat}
    (small : magnitude < infinityBits) : (ofMagnitude negative magnitude).isFinite = true := by
  have bound : infinityBits < Nat.pow 2 63 := by decide
  rw [isFinite, magnitudeBits_ofMagnitude negative (by omega)]
  exact decide_eq_true small

theorem isFinite_negate {number : Binary64} (finite : number.isFinite = true) :
    number.negate.isFinite = true :=
  isFinite_ofMagnitude _ (of_decide_eq_true finite)

theorem scaled_lt {value : Nat} {exponent : Int} (fine : (value.log2 : Int) - 53 ≤ exponent) :
    let scaled := (Ratio.mk value 1).divPowTwo exponent
    scaled.numerator / scaled.denominator < 2 ^ 54 := by
  have bits : value < 2 ^ (value.log2 + 1) := Nat.lt_log2_self
  simp only [Ratio.divPowTwo, Nat.pow_eq]
  split
  case isTrue nonneg =>
    simp only [Nat.one_mul]
    rw [Nat.div_lt_iff_lt_mul (Nat.two_pow_pos _), ← Nat.pow_add]
    exact Nat.lt_of_lt_of_le bits (Nat.pow_le_pow_right (by decide) (by omega))
  case isFalse negative =>
    rw [Nat.div_one]
    calc value * 2 ^ (-exponent).toNat
        < 2 ^ (value.log2 + 1) * 2 ^ (-exponent).toNat :=
          Nat.mul_lt_mul_of_pos_right bits (Nat.two_pow_pos _)
      _ = 2 ^ (value.log2 + 1 + (-exponent).toNat) := (Nat.pow_add ..).symm
      _ ≤ 2 ^ 54 := Nat.pow_le_pow_right (by decide) (by omega)

theorem gridExponent_bounds (value : Nat) :
    (value.log2 : Int) - 53 ≤ gridExponent ⟨value, 1⟩ ∧
      gridExponent ⟨value, 1⟩ ≤ max ((value.log2 : Int) - 52) (-1074) := by
  have one : Nat.log2 1 = 0 := by decide
  simp only [gridExponent, one]
  split <;> omega

theorem roundMagnitude_lt {value : Nat} (small : value < 2 ^ 64) :
    roundMagnitude ⟨value, 1⟩ < infinityBits := by
  rw [roundMagnitude]
  split
  · decide
  case isFalse nonzero =>
    rcases gridExponent_bounds value with ⟨fine, coarse⟩
    have length : value.log2 < 64 := (Nat.log2_lt nonzero).mpr small
    have rounded := Ratio.round_le ((Ratio.mk value 1).divPowTwo (gridExponent ⟨value, 1⟩))
    have bits := scaled_lt fine
    have steps : (gridExponent ⟨value, 1⟩ + 1074).toNat ≤ 1085 := by omega
    have scaled := Nat.mul_le_mul_right (Nat.pow 2 52) steps
    have limit : 1085 * Nat.pow 2 52 + (2 ^ 54 + 1) < infinityBits := by decide
    dsimp only at bits ⊢
    refine Nat.lt_of_le_of_lt (Nat.min_le_right _ _) (Nat.lt_of_le_of_lt ?_ limit)
    exact Nat.add_le_add scaled (Nat.le_trans rounded (Nat.succ_le_succ (Nat.le_of_lt bits)))

theorem isFinite_ofInt {value : Int} (small : value.natAbs < 2 ^ 64) :
    (ofInt value).isFinite = true :=
  isFinite_ofMagnitude _ (roundMagnitude_lt small)

end Binary64

end SchemaDdl
