import SchemaDdl.Number.Binary64

/-!
# Decimal text of binary numbers

The fewest decimal digits that identify a binary number, and the three layouts in which numbers are
written: `Layout.data` for data files, `Layout.plain` for statements, and two fixed places for
reports. Also the rule by which a decimal token becomes a binary number.
-/

namespace SchemaDdl

/-- Decimal digits `d₁ d₂ … dₙ` and the power of ten of the first of them. -/
structure Decimal where
  digits : List Char
  exponent : Int
deriving DecidableEq, Repr

namespace Binary64

/-! ## The fewest digits -/

/-- The fractions between which every fraction rounds to the same magnitude, for a magnitude
`significand · 2 ^ exponent` of the ordinary spacing below it or of half that spacing. -/
structure Basin where
  low : Ratio
  high : Ratio
  /-- Whether the two ends round to the magnitude as well. -/
  closed : Bool

def basin (number : Binary64) : Basin :=
  let (significand, exponent) := number.parts
  let narrow := significand = Nat.pow 2 52 ∧ -1074 < exponent
  let below := if narrow then 4 * significand - 1 else 4 * significand - 2
  { low := Ratio.divPowTwo ⟨below, 4⟩ (-exponent)
    high := Ratio.divPowTwo ⟨4 * significand + 2, 4⟩ (-exponent)
    closed := significand % 2 = 0 }

def Basin.holds (basin : Basin) (ratio : Ratio) : Bool :=
  if basin.closed then
    basin.low.le ratio && ratio.le basin.high
  else
    !ratio.le basin.low && !basin.high.le ratio

def gridPoint (count : Nat) (exponent : Int) : Ratio :=
  if 0 ≤ exponent then ⟨count * Nat.pow 10 exponent.toNat, 1⟩
  else ⟨count, Nat.pow 10 (-exponent).toNat⟩

def gridFloor (ratio : Ratio) (exponent : Int) : Nat :=
  if 0 ≤ exponent then
    ratio.numerator / (ratio.denominator * Nat.pow 10 exponent.toNat)
  else
    ratio.numerator * Nat.pow 10 (-exponent).toNat / ratio.denominator

/-- Whether the grid unit above `count` is nearer to the fraction than the one at `count`, a half
included. -/
def upperIsNear (ratio : Ratio) (count : Nat) (exponent : Int) : Bool :=
  let lower := gridPoint count exponent
  let upper := gridPoint (count + 1) exponent
  -- upper - ratio ≤ ratio - lower
  let twice : Ratio := ⟨2 * ratio.numerator, ratio.denominator⟩
  let sum : Ratio :=
    ⟨lower.numerator * upper.denominator + upper.numerator * lower.denominator,
      lower.denominator * upper.denominator⟩
  sum.le twice

/-- The neighbour of the magnitude on the grid that lies in its basin, the nearer one if both do. -/
def onGrid (number : Binary64) (exponent : Int) : Option Nat :=
  let lower := gridFloor number.magnitude exponent
  let basin := number.basin
  match basin.holds (gridPoint lower exponent), basin.holds (gridPoint (lower + 1) exponent) with
  | true, true => some (if upperIsNear number.magnitude lower exponent then lower + 1 else lower)
  | true, false => some lower
  | false, true => some (lower + 1)
  | false, false => none

/-- The power of ten of the leading digit of a positive fraction, found from a bound above it. -/
def leadingExponent (ratio : Ratio) : (fuel : Nat) → (bound : Int) → Int
  | 0, bound => bound
  | fuel + 1, bound =>
      if gridFloor ratio bound = 0 then leadingExponent ratio fuel (bound - 1) else bound

def firstGrid (number : Binary64) : (fuel : Nat) → (exponent : Int) → Nat × Int
  | 0, exponent => (gridFloor number.magnitude exponent, exponent)
  | fuel + 1, exponent =>
      match number.onGrid exponent with
      | some count => (count, exponent)
      | none => firstGrid number fuel (exponent - 1)

/-- The digits of the shortest decimal that identifies a finite number, its sign apart. -/
def shortest (number : Binary64) : Decimal :=
  if number.isZero then
    ⟨['0'], 0⟩
  else
    let leading := leadingExponent number.magnitude 640 309
    let (count, exponent) := number.firstGrid 17 leading
    let digits := Nat.toDigits 10 count
    let kept := (digits.reverse.dropWhile (· == '0')).reverse
    ⟨kept, exponent + digits.length - 1⟩

/-! ## Layouts -/

/-- The digits with a point, written out to the last place: no exponent, and a point only where
there are places after it. -/
def positional (decimal : Decimal) : List Char :=
  let count : Int := decimal.digits.length
  if decimal.exponent < 0 then
    '0' :: '.' :: List.replicate (-decimal.exponent - 1).toNat '0' ++ decimal.digits
  else if decimal.exponent + 1 < count then
    let whole := (decimal.exponent + 1).toNat
    decimal.digits.take whole ++ '.' :: decimal.digits.drop whole
  else
    decimal.digits ++ List.replicate (decimal.exponent + 1 - count).toNat '0'

/-- The digits with a point after the first and the power of ten after an `e`; a positive power
carries its sign. -/
def scientific (decimal : Decimal) : List Char :=
  let mantissa :=
    match decimal.digits with
    | first :: second :: rest => first :: '.' :: second :: rest
    | digits => digits
  let sign := if decimal.exponent < 0 then ['-'] else ['+']
  mantissa ++ 'e' :: sign ++ Nat.toDigits 10 decimal.exponent.natAbs

def signed (number : Binary64) (text : List Char) : String :=
  String.ofList (if number.isNegative then '-' :: text else text)

def toPlain (number : Binary64) : String :=
  if number.isNaN then "NaN"
  else if number.isFinite then number.signed (positional number.shortest)
  else number.signed "inf".toList

/-- The text of a finite number in data: positional while the power of ten of the leading digit is
from -5 to 15, and then with at least one place after the point. -/
def toData (number : Binary64) : String :=
  let decimal := number.shortest
  if -5 ≤ decimal.exponent ∧ decimal.exponent < 16 then
    let text := positional decimal
    number.signed (if text.contains '.' then text else text ++ ['.', '0'])
  else
    number.signed (scientific decimal)

/-- The text of a finite number with two places after the point; the exact value is rounded, and a
half goes to the even neighbour. -/
def toTwoPlaces (number : Binary64) : String :=
  let value := number.magnitude
  let hundredths := Ratio.round ⟨100 * value.numerator, value.denominator⟩
  let places := Nat.toDigits 10 (hundredths % 100)
  let padded := if places.length < 2 then '0' :: places else places
  number.signed (Nat.toDigits 10 (hundredths / 100) ++ '.' :: padded)

/-! ## Reading -/

def scaleByTen (number : Binary64) (exponent : Int) : Binary64 :=
  let value := number.magnitude
  let power := (ofInt (Int.pow 10 exponent.natAbs)).magnitude
  ofRatio number.isNegative <|
    if 0 ≤ exponent then
      ⟨value.numerator * power.numerator, value.denominator * power.denominator⟩
    else
      ⟨value.numerator * power.denominator, value.denominator * power.numerator⟩

/-- The number that a decimal token denotes: its digits as a whole number, rounded, times or divided
by a rounded power of ten, rounded again. Powers below `10 ^ -308` are divided off in steps of 308.
There is no number for a token above the finite range. -/
def ofToken (significand : Nat) (exponent : Int) : Option Binary64 :=
  let whole := ofInt significand
  if whole.isZero then
    some whole
  else if 308 < exponent then
    none
  else
    let number := descend whole (((-exponent).toNat - 1) / 308) exponent
    if number.isFinite then some number else none
where
  /-- Divides by `10 ^ 308` until the rest of the exponent is at least -308 or nothing is left. -/
  descend (number : Binary64) : Nat → Int → Binary64
    | 0, exponent => number.scaleByTen exponent
    | steps + 1, exponent =>
        if number.isZero then number
        else descend (number.scaleByTen (-308)) steps (exponent + 308)

def negate (number : Binary64) : Binary64 :=
  ofMagnitude (!number.isNegative) number.magnitudeBits

end Binary64

end SchemaDdl
