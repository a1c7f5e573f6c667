import SchemaDdl.Capability.BuiltIn
import SchemaDdl.Proofs.Sql.Expression
import SchemaDdl.Proofs.Sql.Reading

/-!
# Constants and expressions behind DEFAULT

On SQLite, an expression behind `DEFAULT` stands between parentheses unless it is a constant or has
them already. What is taken for a constant is given by a grammar, over digits of any script; it is
the constant of SQLite's own grammar exactly if it is spelled with ASCII characters outside of
string literals, and a blob has whole bytes. A default that is written once is written the same way
again.
-/

namespace SchemaDdl.Sql

/-! ## The grammar of constants -/

section Numbers

variable (digit : Char → Bool)

def IsDigits (text : List Char) : Prop :=
  text ≠ [] ∧ text.all digit = true

def IsSign (text : List Char) : Prop :=
  text = [] ∨ text = ['+'] ∨ text = ['-']

def IsMantissa (text : List Char) : Prop :=
  IsDigits digit text ∨ ∃ whole fraction, text = whole ++ '.' :: fraction ∧
    IsDigits digit (whole ++ fraction)

def IsExponent (text : List Char) : Prop :=
  text = [] ∨ ∃ mark sign digits, text = mark :: (sign ++ digits) ∧ (mark = 'e' ∨ mark = 'E') ∧
    IsSign sign ∧ IsDigits digit digits

def IsUnsignedNumber (text : List Char) : Prop :=
  ∃ mantissa exponent, text = mantissa ++ exponent ∧ IsMantissa digit mantissa ∧
    IsExponent digit exponent

def IsSignedNumber (text : List Char) : Prop :=
  ∃ sign number, text = sign ++ number ∧ IsSign sign ∧ IsUnsignedNumber digit number

end Numbers

def IsHexNumber (text : List Char) : Prop :=
  ∃ mark digits, text = '0' :: mark :: digits ∧ (mark = 'x' ∨ mark = 'X') ∧
    IsDigits isHexDigit digits

def IsBlob (digits text : List Char) : Prop :=
  ∃ mark, text = mark :: '\'' :: (digits ++ ['\'']) ∧ (mark = 'x' ∨ mark = 'X') ∧
    digits.all isHexDigit = true

def IsStringLiteral (text : List Char) : Prop :=
  ∃ value, text = enclose '\'' value

/-- What SQLite takes behind `DEFAULT` without parentheses: a keyword, a number with a sign or
without, or a literal. -/
inductive IsBareForm (text : List Char) : Prop where
  | keyword (keyword : IsKeyword constantKeywords text)
  | number (number : IsSignedNumber Char.isDigit text)
  | hexNumber (number : IsHexNumber text)
  | blob {digits : List Char} (blob : IsBlob digits text) (bytes : 2 ∣ digits.length)
  | string (string : IsStringLiteral text)

/-- What keeps a text that is taken for a constant within that grammar. -/
structure SpelledOut (text : List Char) : Prop where
  /-- Without quotes, all of it is ASCII. -/
  ascii : '\'' ∉ text → ∀ char ∈ text, char.toNat < 128
  /-- With a quote that does not stand in front, it is a blob, of two digits for each byte. -/
  bytes : '\'' ∈ text → text.head? = some '\'' ∨ text.length % 2 = 1

/-- A text whose first parenthesis is closed by its last character. -/
def IsEnclosed (text : List Char) : Prop :=
  ∃ inner, text = '(' :: (inner ++ [')']) ∧ Balanced inner

variable {text rest : List Char} {char : Char} {digit : Char → Bool}

/-! ## Characters of numbers -/

theorem IsSign.mem {sign : List Char} (signed : IsSign sign) :
    ∀ char ∈ sign, char = '+' ∨ char = '-' := by
  rcases signed with rfl | rfl | rfl <;> simp

theorem IsMantissa.mem {mantissa : List Char} (decimal : IsMantissa digit mantissa) :
    ∀ char ∈ mantissa, digit char = true ∨ char = '.' := by
  intro char among
  rcases decimal with digits | ⟨whole, fraction, rfl, digits⟩
  · exact .inl (List.all_eq_true.mp digits.2 char among)
  · have each := List.all_eq_true.mp digits.2 char
    simp only [List.mem_append, List.mem_cons] at among each
    rcases among with inside | rfl | inside
    · exact .inl (each (.inl inside))
    · exact .inr rfl
    · exact .inl (each (.inr inside))

theorem IsExponent.mem {exponent : List Char} (power : IsExponent digit exponent) :
    ∀ char ∈ exponent, digit char = true ∨ char ∈ ['+', '-', 'e', 'E'] := by
  intro char among
  rcases power with rfl | ⟨mark, sign, digits, rfl, marked, signed, decimal⟩
  · cases among
  · have signs := signed.mem char
    have each := List.all_eq_true.mp decimal.2 char
    simp only [List.mem_append, List.mem_cons, List.not_mem_nil, or_false] at among ⊢
    rcases among with rfl | among | among
    · exact .inr (.inr (.inr marked))
    · rcases signs among with rfl | rfl <;> simp
    · exact .inl (each among)

theorem IsSignedNumber.mem (number : IsSignedNumber digit text) :
    ∀ char ∈ text, digit char = true ∨ char ∈ ['+', '-', '.', 'e', 'E'] := by
  rcases number with ⟨sign, _, rfl, signed, mantissa, exponent, rfl, decimal, power⟩
  intro char among
  have signs := signed.mem char
  have points := decimal.mem char
  have marks := power.mem char
  rcases List.mem_append.mp among with sign | number
  · rcases signs sign with rfl | rfl <;> simp
  · rcases List.mem_append.mp number with mantissa | exponent
    · exact (points mantissa).imp_right fun point => by simp [point]
    · refine (marks exponent).imp_right fun mark => ?_
      simp only [List.mem_cons, List.not_mem_nil, or_false] at mark
      rcases mark with rfl | rfl | rfl | rfl <;> simp

/-! ## Digits of any script and of ASCII -/

theorem isDigit_eq_of_ascii (ascii : char.toNat < 128) : Text.isDigit char = char.isDigit :=
  if_pos ascii

theorem toNat_lt_of_isDigit (digit : char.isDigit = true) : char.toNat < 128 := by
  have upper : char.toNat ≤ 57 := (Bool.and_eq_true_iff.mp digit).2 |> of_decide_eq_true
  omega

theorem IsDigits.congr {other : Char → Bool} {digits : List Char} (decimal : IsDigits digit digits)
    (agree : ∀ char ∈ digits, digit char = other char) : IsDigits other digits := by
  refine ⟨decimal.1, List.all_eq_true.mpr fun char among => ?_⟩
  rw [← agree char among]
  exact List.all_eq_true.mp decimal.2 char among

theorem IsSignedNumber.congr {other : Char → Bool} (number : IsSignedNumber digit text)
    (agree : ∀ char ∈ text, digit char = other char) : IsSignedNumber other text := by
  rcases number with ⟨sign, _, rfl, signed, mantissa, exponent, rfl, decimal, power⟩
  simp only [List.mem_append, or_imp, forall_and] at agree
  refine ⟨sign, _, rfl, signed, mantissa, exponent, rfl, ?_, ?_⟩
  · rcases decimal with digits | ⟨whole, fraction, rfl, digits⟩
    · exact .inl (digits.congr agree.2.1)
    · refine .inr ⟨whole, fraction, rfl, digits.congr fun char among => agree.2.1 char ?_⟩
      simp only [List.mem_append, List.mem_cons] at among ⊢
      exact among.imp_right .inr
  · rcases power with rfl | ⟨mark, sign, digits, rfl, marked, signed, decimal⟩
    · exact .inl rfl
    · refine .inr ⟨mark, sign, digits, rfl, marked, signed, decimal.congr fun char among => ?_⟩
      exact agree.2.2 char (List.mem_cons_of_mem mark (List.mem_append_right sign among))

/-! ## What is taken for a number -/

theorem exists_sign (text : List Char) : ∃ sign rest, text = sign ++ rest ∧ IsSign sign ∧
    (sign = [] → ∀ next ∈ rest.head?, next ≠ '+' ∧ next ≠ '-') := by
  by_cases signed : ∃ rest, text = '+' :: rest ∨ text = '-' :: rest
  · rcases signed with ⟨rest, rfl | rfl⟩
    · exact ⟨['+'], rest, rfl, .inr (.inl rfl), nofun⟩
    · exact ⟨['-'], rest, rfl, .inr (.inr rfl), nofun⟩
  · refine ⟨[], text, rfl, .inl rfl, fun _ next ahead => ?_⟩
    rcases List.head?_eq_some_iff.mp ahead with ⟨rest, rfl⟩
    constructor
    · rintro rfl
      exact signed ⟨rest, .inl rfl⟩
    · rintro rfl
      exact signed ⟨rest, .inr rfl⟩

theorem not_sign_of_isDigit {next : Char} (decimal : Text.isDigit next = true) :
    next ≠ '+' ∧ next ≠ '-' := by
  constructor <;> rintro rfl <;> exact absurd decimal (by decide)

theorem isExponent_sign {mark : Char} {sign digits : List Char} (signed : IsSign sign)
    (starts : sign = [] → ∀ next ∈ digits.head?, next ≠ '+' ∧ next ≠ '-') :
    isExponent (mark :: (sign ++ digits)) =
      ((mark == 'e' || mark == 'E') && !digits.isEmpty && digits.all Text.isDigit) := by
  rcases signed with rfl | rfl | rfl
  · cases digits with
    | nil => rfl
    | cons first rest =>
        have other := starts rfl first rfl
        rw [List.nil_append, isExponent]
        · rintro more ⟨⟩
          exact other.1 rfl
        · rintro more ⟨⟩
          exact other.2 rfl
  · rfl
  · rfl

theorem isExponent_iff : isExponent text = true ↔ IsExponent Text.isDigit text := by
  constructor
  · intro power
    cases text with
    | nil => exact .inl rfl
    | cons mark rest =>
        rcases exists_sign rest with ⟨sign, digits, rfl, signed, starts⟩
        rw [isExponent_sign signed starts] at power
        simp only [Bool.and_eq_true, Bool.or_eq_true, beq_iff_eq, Bool.not_eq_true',
          List.isEmpty_eq_false_iff] at power
        exact .inr ⟨mark, sign, digits, rfl, power.1.1, signed, power.1.2, power.2⟩
  · rintro (rfl | ⟨mark, sign, digits, rfl, marked, signed, nonempty, decimal⟩)
    · rfl
    · have starts : sign = [] → ∀ next ∈ digits.head?, next ≠ '+' ∧ next ≠ '-' :=
        fun _ next ahead => not_sign_of_isDigit <|
          List.all_eq_true.mp decimal next (List.mem_of_mem_head? ahead)
      rw [isExponent_sign signed starts]
      simp [marked, nonempty, decimal]

theorem IsExponent.head? {exponent : List Char} (power : IsExponent Text.isDigit exponent) :
    ∀ next ∈ exponent.head?, Text.isDigit next = false ∧ next ≠ '.' := by
  rcases power with rfl | ⟨mark, sign, digits, rfl, marked, _⟩
  · nofun
  · rintro next ⟨⟩
    rcases marked with rfl | rfl <;> decide

theorem isUnsignedNumber_iff :
    isUnsignedNumber text = true ↔ IsUnsignedNumber Text.isDigit text := by
  have point : ∀ rest : List Char, ∀ next ∈ ('.' :: rest).head?, Text.isDigit next = false := by
    rintro rest next ⟨⟩
    decide
  constructor
  · intro number
    have whole : text.takeWhile Text.isDigit ++ text.dropWhile Text.isDigit = text :=
      List.takeWhile_append_dropWhile
    unfold isUnsignedNumber at number
    split at number
    · rename_i rest behind
      have parts : rest.takeWhile Text.isDigit ++ rest.dropWhile Text.isDigit = rest :=
        List.takeWhile_append_dropWhile
      simp only [Bool.and_eq_true, Bool.not_eq_true', Bool.and_eq_false_iff,
        List.isEmpty_eq_false_iff] at number
      refine ⟨text.takeWhile Text.isDigit ++ '.' :: rest.takeWhile Text.isDigit,
        rest.dropWhile Text.isDigit, ?_, .inr ⟨_, _, rfl, ?_, ?_⟩, isExponent_iff.mp number.2⟩
      · rw [List.append_assoc, List.cons_append, parts, ← behind, whole]
      · rw [Ne, List.append_eq_nil_iff, not_and_or]
        exact number.1
      · rw [List.all_append, List.all_takeWhile, List.all_takeWhile, Bool.and_self]
    · simp only [Bool.and_eq_true, Bool.not_eq_true', List.isEmpty_eq_false_iff] at number
      exact ⟨_, _, whole.symm, .inl ⟨number.1, List.all_takeWhile⟩, isExponent_iff.mp number.2⟩
  · rintro ⟨mantissa, exponent, rfl, decimal, power⟩
    have stops := fun next ahead => (power.head? next ahead).1
    unfold isUnsignedNumber
    rcases decimal with ⟨nonempty, digits⟩ | ⟨whole, fraction, rfl, nonempty, digits⟩
    · rw [Text.takeWhile_append_of_stop digits stops, Text.dropWhile_append_of_stop digits stops]
      split
      · exact absurd rfl (power.head? '.' rfl).2
      · simp [nonempty, isExponent_iff.mpr power]
    · rw [List.all_append, Bool.and_eq_true] at digits
      rw [Ne, List.append_eq_nil_iff, not_and_or] at nonempty
      rw [List.append_assoc, List.cons_append,
        Text.takeWhile_append_of_stop digits.1 (point _),
        Text.dropWhile_append_of_stop digits.1 (point _)]
      simp only [Text.takeWhile_append_of_stop digits.2 stops,
        Text.dropWhile_append_of_stop digits.2 stops, isExponent_iff.mpr power, Bool.and_true,
        Bool.not_eq_true', Bool.and_eq_false_iff, List.isEmpty_eq_false_iff]
      exact nonempty

theorem isNumber_sign {sign number : List Char} (signed : IsSign sign)
    (starts : sign = [] → ∀ next ∈ number.head?, next ≠ '+' ∧ next ≠ '-') :
    isNumber (sign ++ number) = isUnsignedNumber number := by
  rcases signed with rfl | rfl | rfl
  · rw [List.nil_append]
    unfold isNumber
    split
    · exact absurd rfl (starts rfl '+' rfl).1
    · exact absurd rfl (starts rfl '-' rfl).2
    · rfl
  · rfl
  · rfl

theorem IsUnsignedNumber.head? {number : List Char}
    (unsigned : IsUnsignedNumber Text.isDigit number) :
    ∀ next ∈ number.head?, next ≠ '+' ∧ next ≠ '-' := by
  rcases unsigned with ⟨mantissa, exponent, rfl, decimal, _⟩
  have nonempty : mantissa ≠ [] := by
    rcases decimal with digits | ⟨_, _, rfl, _⟩
    · exact digits.1
    · simp
  intro next ahead
  rw [List.head?_append_of_ne_nil mantissa nonempty] at ahead
  rcases decimal.mem next (List.mem_of_mem_head? ahead) with digit | rfl
  · exact not_sign_of_isDigit digit
  · decide

theorem isNumber_iff : isNumber text = true ↔ IsSignedNumber Text.isDigit text := by
  constructor
  · intro number
    rcases exists_sign text with ⟨sign, rest, rfl, signed, starts⟩
    rw [isNumber_sign signed starts] at number
    exact ⟨sign, rest, rfl, signed, isUnsignedNumber_iff.mp number⟩
  · rintro ⟨sign, number, rfl, signed, unsigned⟩
    rw [isNumber_sign signed fun _ => unsigned.head?]
    exact isUnsignedNumber_iff.mpr unsigned

/-! ## What is taken for a literal -/

theorem isLiteralTail_cons_of_ne (other : char ≠ '\'') :
    isLiteralTail (char :: rest) = isLiteralTail rest := by
  rw [isLiteralTail]
  · exact fun same => absurd same other
  · exact fun _ same => absurd same other
  · exact other

theorem isLiteralTail_iff :
    isLiteralTail text = true ↔ ∃ value, text = doubled '\'' value ++ ['\''] := by
  constructor
  · intro tail
    induction text using isLiteralTail.induct with
    | case1 => cases tail
    | case2 => exact ⟨[], rfl⟩
    | case3 rest induction =>
        rcases induction tail with ⟨value, rfl⟩
        exact ⟨'\'' :: value, by rw [doubled_cons_self]; rfl⟩
    | case4 rest lone double =>
        rw [isLiteralTail.eq_4 rest lone double] at tail
        cases tail
    | case5 char rest _ _ other induction =>
        rw [isLiteralTail_cons_of_ne other] at tail
        rcases induction tail with ⟨value, rfl⟩
        exact ⟨char :: value, by rw [doubled_cons_of_ne other]; rfl⟩
  · rintro ⟨value, rfl⟩
    induction value with
    | nil => rfl
    | cons char value induction =>
        rcases eq_or_ne char '\'' with rfl | other
        · rw [doubled_cons_self]
          exact induction
        · rw [doubled_cons_of_ne other, List.cons_append]
          exact (isLiteralTail_cons_of_ne other).trans induction

theorem isBlobTail_iff : isBlobTail text = true ↔
    ∃ digits, text = digits ++ ['\''] ∧ digits.all isHexDigit = true := by
  have stops : ∀ next ∈ ['\''].head?, isHexDigit next = false := by
    rintro next ⟨⟩
    decide
  rw [isBlobTail, beq_iff_eq]
  constructor
  · intro behind
    refine ⟨text.takeWhile isHexDigit, ?_, List.all_takeWhile⟩
    rw [← behind, List.takeWhile_append_dropWhile]
  · rintro ⟨digits, rfl, hexadecimal⟩
    exact Text.dropWhile_append_of_stop hexadecimal stops

theorem isConstant_iff : isConstant text = true ↔
    isOneOf constantKeywords text = true ∨ IsSignedNumber Text.isDigit text ∨ IsHexNumber text ∨
      (∃ digits, IsBlob digits text) ∨ IsStringLiteral text := by
  unfold isConstant
  rw [Bool.or_eq_true, Bool.or_eq_true, isNumber_iff, or_assoc]
  refine or_congr Iff.rfl (or_congr Iff.rfl ⟨?_, ?_⟩)
  · intro literal
    split at literal
    · rename_i digits
      simp only [Bool.and_eq_true, Bool.not_eq_true', List.isEmpty_eq_false_iff] at literal
      exact .inl ⟨'x', digits, rfl, .inl rfl, literal⟩
    · rename_i digits
      simp only [Bool.and_eq_true, Bool.not_eq_true', List.isEmpty_eq_false_iff] at literal
      exact .inl ⟨'X', digits, rfl, .inr rfl, literal⟩
    · rcases isBlobTail_iff.mp literal with ⟨digits, rfl, hexadecimal⟩
      exact .inr (.inl ⟨digits, 'x', rfl, .inl rfl, hexadecimal⟩)
    · rcases isBlobTail_iff.mp literal with ⟨digits, rfl, hexadecimal⟩
      exact .inr (.inl ⟨digits, 'X', rfl, .inr rfl, hexadecimal⟩)
    · rcases isLiteralTail_iff.mp literal with ⟨value, rfl⟩
      exact .inr (.inr ⟨value, rfl⟩)
    · cases literal
  · rintro (⟨mark, digits, rfl, marked, nonempty, hexadecimal⟩ |
      ⟨digits, mark, rfl, marked, hexadecimal⟩ | ⟨value, rfl⟩)
    · have each : (!digits.isEmpty && digits.all isHexDigit) = true := by
        rw [hexadecimal, Bool.and_true, Bool.not_eq_true', List.isEmpty_eq_false_iff]
        exact nonempty
      rcases marked with rfl | rfl <;> exact each
    · rcases marked with rfl | rfl <;> exact isBlobTail_iff.mpr ⟨digits, rfl, hexadecimal⟩
    · exact isLiteralTail_iff.mpr ⟨value, rfl⟩

/-! ## Constants that are spelled out -/

theorem unfolded_constantKeywords : Unfolded constantKeywords := by
  simp [Unfolded, constantKeywords]

theorem not_mem_of_isOneOf_constantKeywords (keyword : isOneOf constantKeywords text = true) :
    '\'' ∉ text ∧ '(' ∉ text := by
  rcases isOneOf_iff.mp keyword with ⟨keyword, listed, same⟩
  have absent : ∀ keyword ∈ constantKeywords, '\'' ∉ keyword.toList ∧ '(' ∉ keyword.toList := by
    simp [constantKeywords]
  exact ⟨fun among => (absent keyword listed).1 (same ▸ mem_foldAll among),
    fun among => (absent keyword listed).2 (same ▸ mem_foldAll among)⟩

theorem not_mem_of_isSignedNumber (number : IsSignedNumber Text.isDigit text) :
    '\'' ∉ text ∧ '(' ∉ text := by
  constructor <;> intro among <;> rcases number.mem _ among with digit | mark
  · exact absurd digit (by decide)
  · exact absurd mark (by decide)
  · exact absurd digit (by decide)
  · exact absurd mark (by decide)

theorem toNat_lt_of_toLower (ascii : char.toLower.toNat < 128) : char.toNat < 128 := by
  unfold Char.toLower at ascii
  split at ascii
  · rename_i capital
    have upper : char.toNat ≤ 90 := capital.2
    omega
  · exact ascii

theorem toNat_lt_of_isHexDigit (hexadecimal : isHexDigit char = true) : char.toNat < 128 := by
  rcases Bool.or_eq_true_iff.mp hexadecimal with digit | letter
  · exact toNat_lt_of_isDigit digit
  · have upper : char.toLower.toNat ≤ 102 := (Bool.and_eq_true_iff.mp letter).2 |> of_decide_eq_true
    exact toNat_lt_of_toLower (by omega)

theorem ascii_of_isKeyword (keyword : IsKeyword constantKeywords text) :
    ∀ char ∈ text, char.toNat < 128 := by
  rcases keyword with ⟨keyword, listed, same⟩
  have letters : ∀ keyword ∈ constantKeywords, ∀ char ∈ keyword.toList, char.toNat < 128 := by
    simp [constantKeywords]
  intro char among
  have lowered : char.toLower ∈ keyword.toList := same ▸ List.mem_map_of_mem among
  exact toNat_lt_of_toLower (letters keyword listed _ lowered)

theorem ascii_of_isSignedNumber (number : IsSignedNumber Char.isDigit text) :
    ∀ char ∈ text, char.toNat < 128 := by
  intro char among
  rcases number.mem char among with digit | mark
  · exact toNat_lt_of_isDigit digit
  · have each : ∀ mark ∈ ['+', '-', '.', 'e', 'E'], mark.toNat < 128 := by simp
    exact each char mark

theorem ascii_of_isHexNumber (number : IsHexNumber text) :
    '\'' ∉ text ∧ ∀ char ∈ text, char.toNat < 128 := by
  rcases number with ⟨mark, digits, rfl, marked, _, hexadecimal⟩
  have each := List.all_eq_true.mp hexadecimal
  have marks : mark ≠ '\'' ∧ mark.toNat < 128 := by rcases marked with rfl | rfl <;> decide
  constructor
  · rw [List.mem_cons, List.mem_cons, not_or, not_or]
    exact ⟨by decide, Ne.symm marks.1, fun among => absurd (each _ among) (by decide)⟩
  · intro char among
    rcases List.mem_cons.mp among with rfl | among
    · decide
    · rcases List.mem_cons.mp among with rfl | among
      · exact marks.2
      · exact toNat_lt_of_isHexDigit (each char among)

theorem IsBlob.mem_quote {digits : List Char} (blob : IsBlob digits text) : '\'' ∈ text := by
  rcases blob with ⟨mark, rfl, _⟩
  simp

theorem IsBlob.head? {digits : List Char} (blob : IsBlob digits text) :
    text.head? = some 'x' ∨ text.head? = some 'X' := by
  rcases blob with ⟨mark, rfl, rfl | rfl, _⟩
  · exact .inl rfl
  · exact .inr rfl

theorem IsBlob.length {digits : List Char} (blob : IsBlob digits text) :
    text.length = digits.length + 3 := by
  rcases blob with ⟨mark, rfl, _⟩
  simp

theorem IsStringLiteral.head? (string : IsStringLiteral text) : text.head? = some '\'' := by
  rcases string with ⟨value, rfl⟩
  rfl

theorem IsBareForm.spelledOut (bare : IsBareForm text) : SpelledOut text := by
  cases bare with
  | keyword keyword =>
      have accepted := ((isKeyword_iff unfolded_constantKeywords).mp keyword).1
      exact ⟨fun _ => ascii_of_isKeyword keyword,
        fun quote => absurd quote (not_mem_of_isOneOf_constantKeywords accepted).1⟩
  | number number =>
      have ascii := ascii_of_isSignedNumber number
      refine ⟨fun _ => ascii, fun quote => ?_⟩
      rcases number.mem _ quote with digit | mark
      · cases digit
      · exact absurd mark (by decide)
  | hexNumber number =>
      have ascii := ascii_of_isHexNumber number
      exact ⟨fun _ => ascii.2, fun quote => absurd quote ascii.1⟩
  | blob blob bytes =>
      refine ⟨fun unquoted => absurd blob.mem_quote unquoted, fun _ => .inr ?_⟩
      rw [blob.length]
      omega
  | string string =>
      have first := string.head?
      exact ⟨fun unquoted => absurd (List.mem_of_mem_head? first) unquoted, fun _ => .inl first⟩

theorem isBareForm_iff_spelledOut (constant : isConstant text = true) :
    IsBareForm text ↔ SpelledOut text := by
  refine ⟨IsBareForm.spelledOut, fun spelled => ?_⟩
  rcases isConstant_iff.mp constant with keyword | number | number | ⟨digits, blob⟩ | string
  · have ascii := spelled.ascii (not_mem_of_isOneOf_constantKeywords keyword).1
    have plain : '\u017f' ∉ text := fun among => absurd (ascii _ among) (by decide)
    exact .keyword ((isKeyword_iff unfolded_constantKeywords).mpr ⟨keyword, plain⟩)
  · have ascii := spelled.ascii (not_mem_of_isSignedNumber number).1
    exact .number (number.congr fun char among => isDigit_eq_of_ascii (ascii char among))
  · exact .hexNumber number
  · refine .blob blob ?_
    rcases spelled.bytes blob.mem_quote with first | odd
    · rcases blob.head? with mark | mark <;> rw [mark] at first <;> cases first
    · rw [blob.length] at odd
      omega
  · exact .string string

theorem not_isEnclosed_of_isConstant (constant : isConstant text = true) : ¬IsEnclosed text := by
  rintro ⟨inner, rfl, _⟩
  rcases isConstant_iff.mp constant with keyword | number | number | ⟨digits, blob⟩ | string
  · exact (not_mem_of_isOneOf_constantKeywords keyword).2 List.mem_cons_self
  · exact (not_mem_of_isSignedNumber number).2 List.mem_cons_self
  · rcases number with ⟨_, _, whole, _⟩
    cases whole
  · rcases blob.head? with mark | mark <;> cases mark
  · cases string.head?

/-! ## Expressions behind DEFAULT -/

theorem plain_of_isBlank (blank : Text.isBlank char = true) :
    char ≠ '\'' ∧ char ≠ '(' ∧ char ≠ ')' := by
  refine ⟨?_, ?_, ?_⟩ <;> rintro rfl <;> cases blank

theorem Balanced.trim (balanced : Balanced text) : Balanced (Text.trim text) := by
  rcases Text.exists_trim text with ⟨before, after, whole, leading, trailing⟩
  rw [balanced_iff] at balanced ⊢
  rw [whole, Nesting.afterAll?_append, Nesting.afterAll?_of_plain fun char among =>
    plain_of_isBlank (leading char among), Option.bind_some, Nesting.afterAll?_append] at balanced
  rcases Option.bind_eq_some_iff.mp balanced with ⟨state, inside, behind⟩
  rw [Nesting.afterAll?_of_plain fun char among => plain_of_isBlank (trailing char among)] at behind
  exact inside.trans behind

/-- What is written once for a balanced expression is written the same way again: the parentheses
put around it enclose all of it. -/
theorem expressionDefault_idem {expression : String} (balanced : Balanced expression.toList)
    (family : Family) :
    expressionDefault family (expressionDefault family expression) =
      expressionDefault family expression := by
  have once := toList_expressionDefault family expression
  have again := toList_expressionDefault family (expressionDefault family expression)
  refine String.toList_inj.mp (again.trans ?_)
  split at once
  · rename_i bare
    rw [once, Text.trim_trim, if_pos bare]
  · have solid : Text.trim (expressionDefault family expression).toList =
        (expressionDefault family expression).toList := by
      refine Text.trim_of_solid_ends ?_ ?_ <;> rw [once]
      · rintro char ⟨⟩
        rfl
      · intro char last
        rw [← List.cons_append, List.getLast?_concat] at last
        cases last
        rfl
    have enclosed : isParenthesized (expressionDefault family expression).toList = true :=
      isParenthesized_iff.mpr ⟨_, once, balanced.trim⟩
    rw [solid, if_pos (.inr (.inr enclosed))]

/-- What stands bare on SQLite is a constant of SQLite or enclosed, exactly if it is spelled out
where it is taken for a constant. -/
theorem bareOrEnclosed_iff (bare : StandsBare .sqlite text) :
    IsBareForm text ∨ IsEnclosed text ↔ (isConstant text = true → SpelledOut text) := by
  rcases bare with postgres | constant | enclosed
  · cases postgres
  · rw [or_iff_left (not_isEnclosed_of_isConstant constant), isBareForm_iff_spelledOut constant,
      forall_prop_of_true constant]
  · have enclosed : IsEnclosed text := isParenthesized_iff.mp enclosed
    exact iff_of_true (.inr enclosed) fun constant =>
      absurd enclosed (not_isEnclosed_of_isConstant constant)

/-- An expression behind `DEFAULT` is trimmed, and on SQLite it may be put between parentheses, once
and not again. One that stays without them on SQLite is a constant of SQLite or is enclosed in
parentheses of its own, exactly if it is spelled out where it is taken for a constant. -/
theorem rawDefault_bareOrEnclosed_iff {expression : String} (balanced : Balanced expression.toList)
    (capabilities : Capabilities) (column : Column) :
    ∃ text, writtenDefault capabilities column (.raw expression) = .ok text ∧
      (capabilities.family = .postgres → text = Text.trimmed expression) ∧
      (capabilities.family = .sqlite →
        (text = Text.trimmed expression ∨ text = "(" ++ Text.trimmed expression ++ ")") ∧
        writtenDefault capabilities column (.raw text) = .ok text ∧
        ((text = Text.trimmed expression → IsBareForm text.toList ∨ IsEnclosed text.toList) ↔
          (isConstant (Text.trim expression.toList) = true →
            SpelledOut (Text.trim expression.toList)))) := by
  have written := expressionDefault_eq capabilities.family expression
  refine ⟨expressionDefault capabilities.family expression, rfl, fun postgres => ?_,
    fun sqlite => ⟨?_, ?_, ?_⟩⟩
  · rwa [if_pos (.inl postgres)] at written
  · split at written
    · exact .inl written
    · exact .inr written
  · exact congrArg Except.ok (expressionDefault_idem balanced _)
  · rw [sqlite] at written ⊢
    split at written
    · rename_i bare
      rw [forall_prop_of_true written, written, Text.trimmed, String.toList_ofList]
      exact bareOrEnclosed_iff bare
    · rename_i bare
      have longer : expressionDefault .sqlite expression ≠ Text.trimmed expression := by
        intro same
        have long := congrArg String.length (written.symm.trans same)
        have parentheses : "(".length = 1 ∧ ")".length = 1 := ⟨rfl, rfl⟩
        rw [String.length_append, String.length_append] at long
        omega
      exact iff_of_true (fun same => absurd same longer) fun constant =>
        absurd (.inr (.inl constant)) bare

namespace RawDefaultExample

def code : Column where
  name := "code"
  dataType := "text"

def foreign : String :=
  "-\u0663"

end RawDefaultExample

open RawDefaultExample in
/-- A call with a parenthesis in a literal is put between parentheses once. -/
theorem rawDefault_bareOrEnclosed_code :
    Balanced " lower('(') ".toList ∧
    writtenDefault Capabilities.sqlite code (.raw " lower('(') ") = .ok "(lower('('))" ∧
    writtenDefault Capabilities.sqlite code (.raw "(lower('('))") = .ok "(lower('('))" := by
  have balanced : Balanced " lower('(') ".toList := by decide +kernel
  have once : writtenDefault Capabilities.sqlite code (.raw " lower('(') ") =
      .ok "(lower('('))" := by
    decide +kernel
  rcases rawDefault_bareOrEnclosed_iff balanced Capabilities.sqlite code with
    ⟨text, written, _, sqlite⟩
  obtain rfl : text = "(lower('('))" := Except.ok.inj (written.symm.trans once)
  exact ⟨balanced, once, (sqlite rfl).2.1⟩

open RawDefaultExample in
/-- A sign and a digit of another script than ASCII's stay without parentheses. -/
theorem rawDefault_stays_foreign :
    Balanced foreign.toList ∧
    writtenDefault Capabilities.sqlite code (.raw foreign) = .ok foreign ∧
    Text.trimmed foreign = foreign ∧ ¬IsBareForm foreign.toList ∧ ¬IsEnclosed foreign.toList := by
  have constant : isConstant foreign.toList = true := by decide
  refine ⟨by decide, rfl, by decide, fun bare => ?_,
    not_isEnclosed_of_isConstant constant⟩
  have ascii := bare.spelledOut.ascii (by decide) '\u0663' (by decide)
  exact absurd ascii (by decide)

end SchemaDdl.Sql
