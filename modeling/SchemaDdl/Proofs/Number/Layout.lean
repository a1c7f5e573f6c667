import Mathlib
import SchemaDdl.Proofs.Json.Token
import SchemaDdl.Proofs.Number.Basin
import SchemaDdl.Proofs.Number.Numeral
import SchemaDdl.Proofs.Text.Splitting

/-!
# Numbers from their texts

`textValue` is the number that a text of digits, with a point and a power of ten, stands for. Each
layout of a decimal stands for the value of the decimal. So the text of a number in data determines
the number: what stands behind the sign gives the magnitude, and a point or a power of ten tells it
from the text of a whole number.
-/

namespace SchemaDdl

namespace Text

def fixedValue (text : List Char) : ℚ :=
  let whole := text.takeWhile (· != '.')
  let places := (text.dropWhile (· != '.')).tail
  Nat.ofDigitChars 10 (whole ++ places) 0 / 10 ^ places.length

def powerValue : List Char → Int
  | 'e' :: '+' :: digits => Nat.ofDigitChars 10 digits 0
  | 'e' :: '-' :: digits => -Nat.ofDigitChars 10 digits 0
  | _ => 0

def textValue (text : List Char) : ℚ :=
  fixedValue (text.takeWhile (· != 'e')) * 10 ^ powerValue (text.dropWhile (· != 'e'))

section

variable {text whole mantissa : List Char}

theorem ne_of_not_mem {stop : Char} (absent : stop ∉ text) :
    ∀ char ∈ text, (char != stop) = true :=
  fun _ member => bne_iff_ne.mpr (ne_of_mem_of_not_mem member absent)

theorem takeWhile_ne_append {stop : Char} (absent : stop ∉ text) (rest : List Char) :
    (text ++ stop :: rest).takeWhile (· != stop) = text ∧
      (text ++ stop :: rest).dropWhile (· != stop) = stop :: rest := by
  have each := List.all_eq_true.mpr (ne_of_not_mem absent)
  have stops : ∀ next ∈ (stop :: rest).head?, (next != stop) = false := by simp
  exact ⟨takeWhile_append_of_stop each stops, dropWhile_append_of_stop each stops⟩

theorem takeWhile_ne_of_not_mem {stop : Char} (absent : stop ∉ text) :
    text.takeWhile (· != stop) = text ∧ text.dropWhile (· != stop) = [] :=
  ⟨List.takeWhile_eq_self_iff.mpr (ne_of_not_mem absent),
    List.dropWhile_eq_nil_iff.mpr (ne_of_not_mem absent)⟩

theorem fixedValue_of_not_mem (absent : '.' ∉ text) :
    fixedValue text = Nat.ofDigitChars 10 text 0 := by
  obtain ⟨taken, dropped⟩ := takeWhile_ne_of_not_mem absent
  simp [fixedValue, taken, dropped]

theorem fixedValue_append (absent : '.' ∉ whole) (places : List Char) :
    fixedValue (whole ++ '.' :: places) =
      Nat.ofDigitChars 10 (whole ++ places) 0 / 10 ^ places.length := by
  obtain ⟨taken, dropped⟩ := takeWhile_ne_append absent places
  simp only [fixedValue, taken, dropped, List.tail_cons]

theorem textValue_of_not_mem (absent : 'e' ∉ text) : textValue text = fixedValue text := by
  obtain ⟨taken, dropped⟩ := takeWhile_ne_of_not_mem absent
  simp [textValue, taken, dropped, powerValue]

theorem textValue_append (absent : 'e' ∉ mantissa) (power : List Char) :
    textValue (mantissa ++ 'e' :: power) =
      fixedValue mantissa * 10 ^ powerValue ('e' :: power) := by
  obtain ⟨taken, dropped⟩ := takeWhile_ne_append absent power
  simp only [textValue, taken, dropped]

end

end Text

namespace Decimal

/-- Whether a decimal is written by at least one digit and by nothing else. -/
structure IsWritten (decimal : Decimal) : Prop where
  nonempty : decimal.digits ≠ []
  digits : ∀ digit ∈ decimal.digits, digit.isDigit = true

variable {decimal : Decimal}

theorem value_eq_div (places : Nat)
    (point : decimal.exponent + 1 + places = decimal.digits.length) :
    decimal.value = Nat.ofDigitChars 10 decimal.digits 0 / 10 ^ places := by
  have power : decimal.exponent + 1 - decimal.digits.length = -(places : Int) := by omega
  rw [value, power, zpow_neg, zpow_natCast, div_eq_mul_inv]

theorem IsWritten.not_mem (written : decimal.IsWritten) {char : Char}
    (other : char.isDigit = false) : char ∉ decimal.digits :=
  fun member => Bool.eq_false_iff.mp other (written.digits char member)

end Decimal

namespace Binary64

open Text

variable {decimal : Decimal}

/-! ## Layouts -/

theorem fixedValue_positional (written : decimal.IsWritten) :
    fixedValue (positional decimal) = decimal.value := by
  have noPoint : '.' ∉ decimal.digits := written.not_mem rfl
  simp only [positional]
  split
  case isTrue negative =>
    obtain ⟨zeros, exponent⟩ : ∃ zeros : Nat, decimal.exponent = -zeros - 1 :=
      ⟨(-decimal.exponent - 1).toNat, by omega⟩
    have count : (-decimal.exponent - 1).toNat = zeros := by omega
    rw [count, show '0' :: '.' :: List.replicate zeros '0' ++ decimal.digits =
      ['0'] ++ '.' :: (List.replicate zeros '0' ++ decimal.digits) from rfl,
      fixedValue_append (by decide), Decimal.value_eq_div (zeros + decimal.digits.length)
        (by push_cast; omega)]
    simp [Nat.ofDigitChars_append, Nat.ofDigitChars_replicate_zero, Nat.ofDigitChars_cons]
  case isFalse nonneg =>
    split
    case isTrue fewer =>
      have absent : '.' ∉ decimal.digits.take (decimal.exponent + 1).toNat :=
        fun member => noPoint (List.mem_of_mem_take member)
      rw [fixedValue_append absent, List.take_append_drop]
      refine (Decimal.value_eq_div _ ?_).symm
      rw [List.length_drop]
      omega
    case isFalse many =>
      obtain ⟨zeros, exponent⟩ : ∃ zeros : Nat,
          decimal.exponent + 1 - decimal.digits.length = zeros :=
        ⟨(decimal.exponent + 1 - decimal.digits.length).toNat, by omega⟩
      have absent : '.' ∉ decimal.digits ++ List.replicate zeros '0' := by
        simp [noPoint, List.mem_replicate]
      rw [exponent, Int.toNat_natCast, fixedValue_of_not_mem absent, Decimal.value, exponent,
        Nat.ofDigitChars_append, Nat.ofDigitChars_replicate_zero, zpow_natCast]
      push_cast
      ring

def powerText (decimal : Decimal) : List Char :=
  (if decimal.exponent < 0 then ['-'] else ['+']) ++ Nat.toDigits 10 decimal.exponent.natAbs

theorem powerValue_powerText (decimal : Decimal) :
    powerValue ('e' :: powerText decimal) = decimal.exponent := by
  unfold powerText
  split
  · rw [List.cons_append, List.nil_append, powerValue, Nat.ofDigitChars_ten_toDigits]
    omega
  · rw [List.cons_append, List.nil_append, powerValue, Nat.ofDigitChars_ten_toDigits]
    omega

theorem exists_mantissa (written : decimal.IsWritten) :
    ∃ first rest, first.isDigit = true ∧ 'e' ∉ first :: rest ∧
      scientific decimal = first :: rest ++ 'e' :: powerText decimal ∧
      fixedValue (first :: rest) * 10 ^ decimal.exponent = decimal.value := by
  have noPoint : '.' ∉ decimal.digits := written.not_mem rfl
  have noPower : 'e' ∉ decimal.digits := written.not_mem rfl
  have digits := written.digits
  rcases shape : decimal.digits with _ | ⟨first, _ | ⟨second, rest⟩⟩
  · exact absurd shape written.nonempty
  · rw [shape] at noPoint noPower digits
    refine ⟨first, [], digits first (List.mem_singleton_self first), noPower, ?_, ?_⟩
    · simp only [scientific, shape, powerText, List.append_assoc, List.cons_append]
    · rw [fixedValue_of_not_mem noPoint, Decimal.value, shape]
      simp
  · rw [shape] at noPoint noPower digits
    refine ⟨first, '.' :: second :: rest, digits first List.mem_cons_self, ?_, ?_, ?_⟩
    · simp only [List.mem_cons, not_or] at noPower ⊢
      exact ⟨noPower.1, by decide, noPower.2⟩
    · simp only [scientific, shape, powerText, List.append_assoc, List.cons_append]
    · have absent : '.' ∉ [first] := by
        simp only [List.mem_cons, not_or] at noPoint ⊢
        exact ⟨noPoint.1, List.not_mem_nil⟩
      have power : decimal.exponent + 1 - (first :: second :: rest).length =
          decimal.exponent - (second :: rest).length := by
        simp only [List.length_cons]
        push_cast
        ring
      rw [show first :: '.' :: second :: rest = [first] ++ '.' :: second :: rest from rfl,
        fixedValue_append absent, Decimal.value, shape, power, zpow_sub₀ (by norm_num),
        zpow_natCast]
      simp only [List.singleton_append]
      ring

theorem textValue_scientific (written : decimal.IsWritten) :
    textValue (scientific decimal) = decimal.value := by
  obtain ⟨first, rest, _, absent, text, value⟩ := exists_mantissa written
  rw [text, textValue_append absent, powerValue_powerText, value]

theorem head?_positional (written : decimal.IsWritten) :
    ∃ first rest, first.isDigit = true ∧ positional decimal = first :: rest := by
  obtain ⟨digit, digits, shape⟩ := List.exists_cons_of_ne_nil written.nonempty
  have isDigit : digit.isDigit = true := by
    have digits := written.digits
    rw [shape] at digits
    exact digits digit List.mem_cons_self
  simp only [positional, shape]
  split
  case isTrue negative => exact ⟨'0', _, rfl, rfl⟩
  case isFalse nonneg =>
    split
    case isTrue fewer =>
      obtain ⟨more, whole⟩ : ∃ more, (decimal.exponent + 1).toNat = more + 1 :=
        ⟨decimal.exponent.toNat, by omega⟩
      exact ⟨digit, _, isDigit, by rw [whole]; rfl⟩
    case isFalse many => exact ⟨digit, _, isDigit, rfl⟩

/-! ## The text in data -/

def dataText (number : Binary64) : List Char :=
  let decimal := number.shortest
  if -5 ≤ decimal.exponent ∧ decimal.exponent < 16 then
    let text := positional decimal
    if text.contains '.' then text else text ++ ['.', '0']
  else
    scientific decimal

theorem toData_eq (number : Binary64) : number.toData = number.signed number.dataText := by
  simp only [toData, dataText]
  split <;> rfl

theorem isWritten_shortest (number : Binary64) : number.shortest.IsWritten where
  nonempty := by
    intro empty
    have value : number.shortest.value = 0 := by
      rw [Decimal.value, empty, Nat.ofDigitChars_nil, Nat.cast_zero, zero_mul]
    by_cases zero : number.magnitudeBits = 0
    · have isZero : number.isZero = true := beq_iff_eq.mpr zero
      rw [shortest, isZero] at empty
      cases empty
    · exact (roundsTo_shortest zero).pos.ne' value
  digits := by
    unfold shortest
    split
    · intro digit member
      rw [List.mem_singleton.mp member]
      rfl
    · intro digit member
      have among := (List.dropWhile_sublist _).mem (List.mem_reverse.mp member)
      exact Nat.isDigit_of_mem_toDigits (by decide) (by decide) (List.mem_reverse.mp among)

theorem textValue_dataText (number : Binary64) :
    textValue number.dataText = number.shortest.value := by
  have written := number.isWritten_shortest
  have value := fixedValue_positional written
  have noPower : 'e' ∉ positional number.shortest :=
    (numeral_positional number.numeral_shortest).not_mem rfl
  simp only [dataText]
  split
  · split
    case isTrue => rw [textValue_of_not_mem noPower, value]
    case isFalse whole =>
      have noPoint : '.' ∉ positional number.shortest := by simpa using whole
      have absent : 'e' ∉ positional number.shortest ++ ['.', '0'] := by simp [noPower]
      rw [textValue_of_not_mem absent, fixedValue_append noPoint, ← value,
        fixedValue_of_not_mem noPoint, Nat.ofDigitChars_append]
      simp [Nat.ofDigitChars_cons]
  · exact textValue_scientific written

theorem head?_dataText (number : Binary64) :
    ∃ first rest, first.isDigit = true ∧ number.dataText = first :: rest := by
  have written := number.isWritten_shortest
  obtain ⟨first, rest, isDigit, text⟩ := head?_positional written
  simp only [dataText]
  split
  · split
    · exact ⟨first, rest, isDigit, text⟩
    · exact ⟨first, rest ++ ['.', '0'], isDigit, by rw [text]; rfl⟩
  · obtain ⟨first, rest, isDigit, _, text, _⟩ := exists_mantissa written
    exact ⟨first, _, isDigit, text⟩

theorem mem_dataText (number : Binary64) : '.' ∈ number.dataText ∨ 'e' ∈ number.dataText := by
  simp only [dataText]
  split
  · split
    case isTrue point => exact .inl (by simpa using point)
    case isFalse => exact .inl (by simp)
  · obtain ⟨first, rest, _, _, text, _⟩ := exists_mantissa number.isWritten_shortest
    exact .inr (by simp [text])

theorem dataText_ne_minus (number : Binary64) (rest : List Char) :
    number.dataText ≠ '-' :: rest := by
  obtain ⟨first, others, isDigit, text⟩ := head?_dataText number
  intro equal
  rw [text] at equal
  cases equal
  cases isDigit

theorem eq_of_magnitudeBits {left right : Binary64} (sign : left.isNegative = right.isNegative)
    (magnitude : left.magnitudeBits = right.magnitudeBits) : left = right := by
  obtain ⟨left⟩ := left
  obtain ⟨right⟩ := right
  simp only [isNegative, magnitudeBits, Nat.pow_eq, decide_eq_decide] at sign magnitude
  have leftBound := left.toNat_lt
  have rightBound := right.toNat_lt
  rw [mk.injEq, ← UInt64.toNat_inj]
  omega

theorem toData_injective : Function.Injective toData := by
  intro left right same
  rw [toData_eq, toData_eq, signed, signed, String.ofList_inj] at same
  have parts : left.isNegative = right.isNegative ∧ left.dataText = right.dataText := by
    cases leftSign : left.isNegative with
    | false =>
        cases rightSign : right.isNegative with
        | false => simpa [leftSign, rightSign] using same
        | true =>
            simp only [leftSign, rightSign, Bool.false_eq_true, if_false, if_true] at same
            exact absurd same (dataText_ne_minus left _)
    | true =>
        cases rightSign : right.isNegative with
        | false =>
            simp only [leftSign, rightSign, Bool.false_eq_true, if_false, if_true] at same
            exact absurd same.symm (dataText_ne_minus right _)
        | true => simpa [leftSign, rightSign] using same
  refine eq_of_magnitudeBits parts.1 (magnitudeBits_eq_of_shortest ?_)
  rw [← textValue_dataText, ← textValue_dataText, parts.2]

end Binary64

/-! ## Numbers in JSON text -/

namespace Json.Number

def IsFinite : Number → Prop
  | .integer _ => True
  | .float value => value.isFinite = true

def IsTextChar (char : Char) : Prop :=
  Text.isNumeral char = true ∨ char = 'e' ∨ char = '+'

section

open Text Binary64

theorem isTextChar_scientific {decimal : Decimal} (digits : Numeral decimal.digits) :
    ∀ char ∈ scientific decimal, IsTextChar char := by
  intro char member
  simp only [scientific, List.mem_append, List.mem_cons] at member
  rcases member with (mantissa | rfl | sign) | power
  · left
    rcases shape : decimal.digits with _ | ⟨first, _ | ⟨second, rest⟩⟩
    · simp [shape] at mantissa
    · rw [shape] at digits mantissa
      exact digits char mantissa
    · rw [shape] at digits mantissa
      rcases List.mem_cons.mp mantissa with rfl | places
      · exact digits char List.mem_cons_self
      · rcases List.mem_cons.mp places with rfl | rest
        · rfl
        · exact digits char (List.mem_cons_of_mem first rest)
  · exact .inr (.inl rfl)
  · split at sign
    · exact .inl (by rw [List.mem_singleton.mp sign]; rfl)
    · exact .inr (.inr (List.mem_singleton.mp sign))
  · exact .inl (numeral_toDigits _ char power)

theorem isTextChar_dataText (number : Binary64) : ∀ char ∈ number.dataText, IsTextChar char := by
  have numeral := numeral_positional number.numeral_shortest
  simp only [dataText]
  split
  · split
    · exact fun char member => .inl (numeral char member)
    · have longer : Numeral (positional number.shortest ++ ['.', '0']) :=
        numeral_append.mpr ⟨numeral, by decide⟩
      exact fun char member => .inl (longer char member)
  · exact isTextChar_scientific number.numeral_shortest

theorem toList_text_float {value : Binary64} (finite : value.isFinite = true) :
    (text (.float value)).toList =
      if value.isNegative then '-' :: value.dataText else value.dataText := by
  rw [text, if_pos finite, toData_eq, signed, String.toList_ofList]

theorem isTextChar_text {number : Number} (finite : number.IsFinite) :
    ∀ char ∈ number.text.toList, IsTextChar char := by
  cases number with
  | integer value => exact fun char member => .inl (numeral_toString_int value char member)
  | float value =>
      rw [toList_text_float finite]
      intro char member
      split at member
      · rcases List.mem_cons.mp member with rfl | member
        · exact .inl rfl
        · exact isTextChar_dataText value char member
      · exact isTextChar_dataText value char member

theorem text_ne_empty {number : Number} (finite : number.IsFinite) : number.text.toList ≠ [] := by
  cases number with
  | integer value =>
      rw [toList_text_integer]
      split
      · exact Nat.toDigits_ne_nil
      · exact List.cons_ne_nil _ _
  | float value =>
      obtain ⟨first, rest, _, shape⟩ := head?_dataText value
      rw [toList_text_float finite, shape]
      split
      · exact List.cons_ne_nil _ _
      · exact List.cons_ne_nil _ _

theorem not_mem_text_integer (value : Int) :
    '.' ∉ (text (.integer value)).toList ∧ 'e' ∉ (text (.integer value)).toList := by
  have digits (value : Nat) {char : Char} (other : char.isDigit = false) :
      char ∉ Nat.toDigits 10 value := fun member =>
    Bool.eq_false_iff.mp other (Nat.isDigit_of_mem_toDigits (by decide) (by decide) member)
  rw [toList_text_integer]
  split
  · exact ⟨digits _ rfl, digits _ rfl⟩
  · simp only [List.mem_cons, not_or]
    exact ⟨⟨by decide, digits _ rfl⟩, ⟨by decide, digits _ rfl⟩⟩

theorem text_integer_ne_float (whole : Int) {value : Binary64} (finite : value.isFinite = true) :
    text (.integer whole) ≠ text (.float value) := by
  intro same
  have absent := not_mem_text_integer whole
  rw [same, toList_text_float finite] at absent
  have within : ∀ char ∈ value.dataText,
      char ∈ if value.isNegative then '-' :: value.dataText else value.dataText := by
    intro char member
    split
    · exact List.mem_cons_of_mem _ member
    · exact member
  rcases mem_dataText value with point | power
  · exact absent.1 (within '.' point)
  · exact absent.2 (within 'e' power)

end

theorem text_injective {left right : Number} (leftFinite : left.IsFinite)
    (rightFinite : right.IsFinite) (same : left.text = right.text) : left = right := by
  cases left with
  | integer left =>
      cases right with
      | integer right =>
          rw [text, text, Int.toString_eq_repr, Int.toString_eq_repr, Int.repr_inj] at same
          rw [same]
      | float right => exact absurd same (text_integer_ne_float left rightFinite)
  | float left =>
      cases right with
      | integer right => exact absurd same.symm (text_integer_ne_float right leftFinite)
      | float right =>
          simp only [IsFinite] at leftFinite rightFinite
          rw [text, text, if_pos leftFinite, if_pos rightFinite] at same
          rw [Binary64.toData_injective same]

end Json.Number

end SchemaDdl
