/-!
# Binary floating-point numbers

Numbers of 64 bits in the binary interchange format, as bit patterns: a sign, an exponent and a
significand. Everything is computed on natural numbers, so a value is exact until a rounding to
nearest, ties to even, makes it a bit pattern again.
-/

namespace SchemaDdl

/-- A floating-point number of 64 bits, by its bit pattern. -/
structure Binary64 where
  bits : UInt64
deriving DecidableEq, Repr, Inhabited

/-- A fraction that is not negative. -/
structure Ratio where
  numerator : Nat
  denominator : Nat
deriving DecidableEq, Repr

namespace Ratio

/-- The quotient rounded to the nearest whole number; a half goes to the even neighbour. -/
def round (ratio : Ratio) : Nat :=
  let whole := ratio.numerator / ratio.denominator
  let double := 2 * (ratio.numerator % ratio.denominator)
  if double < ratio.denominator then whole
  else if ratio.denominator < double then whole + 1
  else if whole % 2 = 0 then whole else whole + 1

/-- The fraction divided by a power of two, whose exponent may be negative. -/
def divPowTwo (ratio : Ratio) (exponent : Int) : Ratio :=
  if 0 ≤ exponent then
    { ratio with denominator := ratio.denominator * Nat.pow 2 exponent.toNat }
  else
    { ratio with numerator := ratio.numerator * Nat.pow 2 (-exponent).toNat }

def le (left right : Ratio) : Bool :=
  left.numerator * right.denominator ≤ right.numerator * left.denominator

end Ratio

namespace Binary64

def infinityBits : Nat := 0x7FF0000000000000

def magnitudeBits (number : Binary64) : Nat :=
  number.bits.toNat % Nat.pow 2 63

def isNegative (number : Binary64) : Bool :=
  Nat.pow 2 63 ≤ number.bits.toNat

def isFinite (number : Binary64) : Bool :=
  number.magnitudeBits < infinityBits

def isNaN (number : Binary64) : Bool :=
  infinityBits < number.magnitudeBits

def isZero (number : Binary64) : Bool :=
  number.magnitudeBits == 0

/-- Numeric equality: the two zeros are equal, and what is not a number equals nothing. -/
def same (left right : Binary64) : Bool :=
  !left.isNaN && !right.isNaN && ((left.isZero && right.isZero) || left.bits == right.bits)

instance : BEq Binary64 := ⟨same⟩

def ofMagnitude (negative : Bool) (magnitude : Nat) : Binary64 :=
  ⟨UInt64.ofNat (if negative then Nat.pow 2 63 + magnitude else magnitude)⟩

def nan : Binary64 := ⟨0x7FF8000000000000⟩
def infinity : Binary64 := ofMagnitude false infinityBits
def negativeInfinity : Binary64 := ofMagnitude true infinityBits

/-- The significand `m` and the exponent `e` for which the magnitude is `m · 2 ^ e`. -/
def parts (number : Binary64) : Nat × Int :=
  let field : Nat := number.magnitudeBits / Nat.pow 2 52
  let fraction : Nat := number.magnitudeBits % Nat.pow 2 52
  if field = 0 then (fraction, -1074) else (Nat.pow 2 52 + fraction, (field : Int) - 1075)

def magnitude (number : Binary64) : Ratio :=
  let (significand, exponent) := number.parts
  Ratio.divPowTwo ⟨significand, 1⟩ (-exponent)

/-- The exponent of the grid on which a positive fraction is rounded: 53 bits above the binary point
of the grid, unless the number is so small that the least exponent holds. -/
def gridExponent (ratio : Ratio) : Int :=
  let guess : Int := (ratio.numerator.log2 : Int) - (ratio.denominator.log2 : Int) - 53
  let scaled := ratio.divPowTwo guess
  let exponent := if scaled.numerator / scaled.denominator < Nat.pow 2 53 then guess else guess + 1
  max exponent (-1074)

/-- The magnitude nearest to a fraction, ties to even; the infinity when it is too large. -/
def roundMagnitude (ratio : Ratio) : Nat :=
  if ratio.numerator = 0 then
    0
  else
    let exponent := gridExponent ratio
    min infinityBits ((exponent + 1074).toNat * Nat.pow 2 52 + (ratio.divPowTwo exponent).round)

def ofRatio (negative : Bool) (ratio : Ratio) : Binary64 :=
  ofMagnitude negative (roundMagnitude ratio)

def ofInt (value : Int) : Binary64 :=
  ofRatio (value < 0) ⟨value.natAbs, 1⟩

def complement (number : Binary64) : Binary64 :=
  let amount := number.magnitude
  let rest : Int := amount.denominator - amount.numerator
  ofRatio (rest < 0) ⟨rest.natAbs, amount.denominator⟩

/-- The place of a number in the total order of all numbers. Those with a sign come first, by
falling magnitude. -/
def rank (number : Binary64) : Int :=
  if number.isNegative then -1 - number.magnitudeBits else number.magnitudeBits

/-- The total order of all numbers. Of the two zeros the one with a sign comes first. -/
def totalLE (left right : Binary64) : Bool :=
  left.rank ≤ right.rank

example : ofInt 1 = ⟨0x3FF0000000000000⟩ := by decide +kernel
example : ofRatio false ⟨1, 10⟩ = ⟨0x3FB999999999999A⟩ := by decide +kernel
example : ofRatio false ⟨5, 10 ^ 324⟩ = ⟨1⟩ := by decide +kernel
example : ofRatio false ⟨2, 10 ^ 324⟩ = ⟨0⟩ := by decide +kernel
example : (ofRatio false ⟨10 ^ 400, 1⟩).isFinite = false := by decide +kernel

end Binary64

end SchemaDdl
