import SchemaDdl.Json.Printer
import SchemaDdl.Json.Reader

/-!
# Strings and numbers in JSON text

The characters of a written string are read back, whatever follows the closing quote. The token of a
number is read alike in front of any text that cannot go on with it, and the digits of a whole
number of 64 bits are its token.
-/

namespace SchemaDdl.Json

/-! ## Strings -/

theorem hexDigit?_digitChar {digit : Nat} (small : digit < 16) :
    hexDigit? (Nat.digitChar digit) = some digit := by
  have each : ∀ digit : Fin 16, hexDigit? (Nat.digitChar digit) = some digit.val := by decide
  exact each ⟨digit, small⟩

theorem readUnits_escapeChar (char : Char) (rest : List Char) :
    readUnits (escapeChar char ++ rest) =
      (readUnits rest).map fun (units, after) => (char.toNat :: units, after) := by
  unfold escapeChar
  split
  case h_8 plain =>
    split
    · rename_i control
      have high : hexDigit? (Nat.digitChar (char.toNat / 16)) = some (char.toNat / 16) :=
        hexDigit?_digitChar (by omega)
      have low : hexDigit? (Nat.digitChar (char.toNat % 16)) = some (char.toNat % 16) :=
        hexDigit?_digitChar (by omega)
      have zero : hexDigit? '0' = some 0 := rfl
      have whole : ((0 * 16 + 0) * 16 + char.toNat / 16) * 16 + char.toNat % 16 = char.toNat := by
        omega
      simp only [List.cons_append, List.nil_append, readUnits, zero, high, low, whole]
    · rename_i printable
      rw [List.singleton_append, readUnits]
      · rw [if_neg printable]
      all_goals simp_all
  all_goals simp [readUnits, escaped?]

theorem readUnits_flatMap_escapeChar (chars rest : List Char) :
    readUnits (chars.flatMap escapeChar ++ '"' :: rest) = some (chars.map Char.toNat, rest) := by
  induction chars with
  | nil => simp [readUnits]
  | cons char chars induction =>
      rw [List.flatMap_cons, List.append_assoc, readUnits_escapeChar, induction]
      rfl

theorem charsOfUnits_map_toNat (chars : List Char) :
    charsOfUnits (chars.map Char.toNat) = some chars := by
  induction chars with
  | nil => simp [charsOfUnits]
  | cons char chars induction =>
      have scalar : char.toNat < 0xD800 ∨ 0xDFFF < char.toNat ∧ char.toNat < 0x110000 := char.valid
      have below : ¬(0xD800 ≤ char.toNat ∧ char.toNat < 0xDC00) := by omega
      have above : ¬(0xDC00 ≤ char.toNat ∧ char.toNat < 0xE000) := by omega
      rw [List.map_cons, charsOfUnits.eq_def]
      simp only [if_neg below, if_neg above, induction, Option.map_some, Char.ofNat_toNat]

/-! ## Numbers -/

def EndsToken (text : List Char) : Prop :=
  ∀ char ∈ text.head?, char.isDigit = false ∧ char ≠ '.' ∧ char ≠ 'e' ∧ char ≠ 'E'

theorem absorb_of_fits {digits : List Char} {significand : Nat}
    (fits : Nat.ofDigitChars 10 digits significand ≤ largestSignificand) :
    absorb significand digits = (Nat.ofDigitChars 10 digits significand, []) := by
  induction digits generalizing significand with
  | nil => rfl
  | cons digit digits induction =>
      rw [Nat.ofDigitChars_cons] at fits ⊢
      have next : significand * 10 + (digit.toNat - '0'.toNat) ≤ largestSignificand := by
        rw [Nat.ofDigitChars_eq_ofDigitChars_zero] at fits
        have grows := Nat.one_le_pow digits.length 10 (by decide)
        have := Nat.le_mul_of_pos_left (10 * significand + (digit.toNat - '0'.toNat)) grows
        omega
      rw [absorb, if_pos next, Nat.mul_comm, induction fits]

theorem toList_text_integer (value : Int) :
    (Number.text (.integer value)).toList =
      if 0 ≤ value then Nat.toDigits 10 value.toNat else '-' :: Nat.toDigits 10 (-value).toNat := by
  rw [Number.text, Int.toString_eq_repr, Int.repr_eq_if]
  split
  · exact Nat.toList_repr
  · rw [String.toList_append, Nat.toList_repr]
    rfl

theorem head?_toDigits {value : Nat} (positive : 0 < value) :
    (Nat.toDigits 10 value).head? ≠ some '0' := by
  induction value using Nat.strongRecOn with
  | ind value induction =>
      rcases Nat.lt_or_ge value 10 with small | large
      · rw [Nat.toDigits_of_lt_base small]
        have each : ∀ digit : Fin 10, 0 < digit.val → [digit.val.digitChar].head? ≠ some '0' := by
          decide
        exact each ⟨value, small⟩ positive
      · have fewer := induction (value / 10) (by omega) (by omega)
        rw [Nat.toDigits_of_base_le (by decide) large, List.head?_append]
        have nonempty : Nat.toDigits 10 (value / 10) ≠ [] := Nat.toDigits_ne_nil
        rcases List.exists_cons_of_ne_nil nonempty with ⟨digit, digits, equal⟩
        rw [equal] at fewer ⊢
        exact fewer

theorem toDigits_ne_zero_cons {value : Nat} {second : Char} {rest : List Char} :
    Nat.toDigits 10 value ≠ '0' :: second :: rest := by
  intro equal
  rcases Nat.eq_zero_or_pos value with rfl | positive
  · rw [Nat.toDigits_zero] at equal
    cases equal
  · exact head?_toDigits positive (by rw [equal]; rfl)

theorem readToken_toDigits (negative : Bool) (value : Nat) :
    readToken negative (Nat.toDigits 10 value) =
      some (⟨negative, Nat.toDigits 10 value, none, none⟩, []) := by
  have digits : readDigits (Nat.toDigits 10 value) = (Nat.toDigits 10 value, []) := by
    have each : ∀ digit ∈ Nat.toDigits 10 value, digit.isDigit = true := fun digit member =>
      Nat.isDigit_of_mem_toDigits (by decide) (by decide) member
    rw [readDigits, ← List.append_nil (Nat.toDigits 10 value),
      List.takeWhile_append_of_pos each, List.dropWhile_append_of_pos each]
    rfl
  unfold readToken
  rw [digits]
  split
  case h_1 empty => exact absurd (congrArg Prod.fst empty) Nat.toDigits_ne_nil
  case h_2 zeros => exact absurd (congrArg Prod.fst zeros) toDigits_ne_zero_cons
  case h_3 equal =>
    cases equal
    rfl

theorem number?_toDigits {value : Nat} (fits : value ≤ largestSignificand) :
    Token.number? ⟨false, Nat.toDigits 10 value, none, none⟩ = some (.integer value) := by
  have absorbed : absorb 0 (Nat.toDigits 10 value) = (value, []) := by
    rw [absorb_of_fits (by rw [Nat.ofDigitChars_ten_toDigits]; exact fits),
      Nat.ofDigitChars_ten_toDigits]
  simp [Token.number?, absorbed]

theorem number?_toDigits_of_negative {value : Nat} (positive : 0 < value)
    (fits : value ≤ Nat.pow 2 63) :
    Token.number? ⟨true, Nat.toDigits 10 value, none, none⟩ = some (.integer (-value)) := by
  have absorbed : absorb 0 (Nat.toDigits 10 value) = (value, []) := by
    have fits : value ≤ largestSignificand := Nat.le_trans fits (by decide)
    rw [absorb_of_fits (by rw [Nat.ofDigitChars_ten_toDigits]; exact fits),
      Nat.ofDigitChars_ten_toDigits]
  simp [Token.number?, absorbed, positive, fits]

theorem readDigits_append {rest : List Char} (ends : EndsToken rest) (text : List Char) :
    readDigits (text ++ rest) = ((readDigits text).1, (readDigits text).2 ++ rest) := by
  induction text with
  | nil =>
      cases rest with
      | nil => rfl
      | cons char rest => simp [readDigits, (ends char rfl).1]
  | cons char text induction =>
      simp only [readDigits, Prod.mk.injEq] at induction ⊢
      cases digit : char.isDigit with
      | true => simp [digit, induction]
      | false => simp [digit]

theorem readFraction_append {text after rest : List Char} {fraction : Option (List Char)}
    (ends : EndsToken rest) (read : readFraction text = some (fraction, after)) :
    readFraction (text ++ rest) = some (fraction, after ++ rest) := by
  unfold readFraction at read
  split at read
  case h_1 text =>
    rw [List.cons_append, readFraction, readDigits_append ends]
    rcases digits : readDigits text with ⟨_ | ⟨first, digits⟩, left⟩
    · rw [digits] at read
      cases read
    · rw [digits] at read
      cases read
      rfl
  case h_2 other =>
    cases read
    rw [readFraction]
    intro more equal
    cases text with
    | nil =>
        rw [List.nil_append] at equal
        exact absurd rfl (ends '.' (by rw [equal]; rfl)).2.1
    | cons char text =>
        cases equal
        exact other _ rfl

theorem readExponentDigits_append {negative : Bool} {text after rest : List Char}
    {exponent : Option (Bool × List Char)} (ends : EndsToken rest)
    (read : readExponentDigits negative text = some (exponent, after)) :
    readExponentDigits negative (text ++ rest) = some (exponent, after ++ rest) := by
  unfold readExponentDigits at read ⊢
  rw [readDigits_append ends]
  rcases digits : readDigits text with ⟨_ | ⟨first, digits⟩, left⟩
  · rw [digits] at read
    cases read
  · rw [digits] at read
    cases read
    rfl

theorem exists_digit_of_readExponentDigits {negative : Bool} {text after : List Char}
    {exponent : Option (Bool × List Char)}
    (read : readExponentDigits negative text = some (exponent, after)) :
    ∃ digit more, text = digit :: more ∧ digit.isDigit = true := by
  cases text with
  | nil => cases read
  | cons digit more =>
      cases isDigit : digit.isDigit with
      | true => exact ⟨digit, more, rfl, isDigit⟩
      | false => simp [readExponentDigits, readDigits, isDigit] at read

theorem readExponent_of_digit {text after : List Char} {exponent : Option (Bool × List Char)}
    (read : readExponentDigits false text = some (exponent, after)) :
    readExponent ('e' :: text) = some (exponent, after)
      ∧ readExponent ('E' :: text) = some (exponent, after) := by
  rcases exists_digit_of_readExponentDigits read with ⟨digit, more, rfl, isDigit⟩
  have unsigned : ∀ rest, digit :: more ≠ '+' :: rest ∧ digit :: more ≠ '-' :: rest := by
    intro rest
    constructor <;> (intro equal; cases equal; cases isDigit)
  constructor
  · rw [readExponent, read]
    · exact fun rest => (unsigned rest).1
    · exact fun rest => (unsigned rest).2
  · rw [readExponent, read]
    · exact fun rest => (unsigned rest).1
    · exact fun rest => (unsigned rest).2

theorem readExponent_of_none {text : List Char}
    (other : ∀ char ∈ text.head?, char ≠ 'e' ∧ char ≠ 'E') :
    readExponent text = some (none, text) := by
  unfold readExponent
  split
  case h_7 => rfl
  all_goals simp at other

theorem readExponent_append {text after rest : List Char}
    {exponent : Option (Bool × List Char)} (ends : EndsToken rest)
    (read : readExponent text = some (exponent, after)) :
    readExponent (text ++ rest) = some (exponent, after ++ rest) := by
  unfold readExponent at read
  split at read
  case h_5 text _ _ => exact (readExponent_of_digit (readExponentDigits_append ends read)).1
  case h_6 text _ _ => exact (readExponent_of_digit (readExponentDigits_append ends read)).2
  case h_7 _ _ _ _ lower upper =>
    cases read
    refine readExponent_of_none fun char head => ?_
    cases text with
    | nil => exact (ends char head).2.2
    | cons first text =>
        cases head
        exact ⟨fun equal => lower text (by rw [equal]), fun equal => upper text (by rw [equal])⟩
  all_goals exact readExponentDigits_append ends read

theorem readToken_append {negative : Bool} {text after rest : List Char} {token : Token}
    (ends : EndsToken rest) (read : readToken negative text = some (token, after)) :
    readToken negative (text ++ rest) = some (token, after ++ rest) := by
  unfold readToken at read ⊢
  rw [readDigits_append ends]
  split at read
  case h_1 => cases read
  case h_2 => cases read
  case h_3 whole left nonempty nonzero digits =>
    split at read
    case h_1 => cases read
    case h_2 fraction left' foundFraction =>
      split at read
      case h_1 => cases read
      case h_2 exponent left'' foundExponent =>
        cases read
        rw [digits]
        simp only [readFraction_append ends foundFraction, readExponent_append ends foundExponent]

theorem isDigit_of_readToken {negative : Bool} {text after : List Char} {token : Token}
    (read : readToken negative text = some (token, after)) :
    ∃ digit more, text = digit :: more ∧ digit.isDigit = true := by
  cases text with
  | nil => cases read
  | cons digit more =>
      cases isDigit : digit.isDigit with
      | true => exact ⟨digit, more, rfl, isDigit⟩
      | false => simp [readToken, readDigits, isDigit] at read

end SchemaDdl.Json
