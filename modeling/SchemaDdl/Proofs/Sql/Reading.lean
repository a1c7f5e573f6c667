import Mathlib.Logic.Function.Basic
import SchemaDdl.Sql.Quoted
import SchemaDdl.Text.Segment

/-!
# Reading names and literals back

A reader of statements takes a small word for a name unless the word is reserved, and the text
between two quotes for a name or a literal, where a quote written twice is one of the text. What is
written for a name or a literal is read back whole, whatever characters it has.
-/

namespace SchemaDdl

/-! ## Text after a beginning -/

namespace Text

variable {beginning text rest : List Char}

theorem after?_append (beginning rest : List Char) :
    after? beginning (beginning ++ rest) = some rest := by
  induction beginning with
  | nil => rfl
  | cons char beginning induction => simpa [after?] using induction

theorem after?_eq_some_iff : after? beginning text = some rest ↔ text = beginning ++ rest := by
  constructor
  · intro found
    induction beginning generalizing text with
    | nil => exact Option.some.inj found
    | cons expected beginning induction =>
        cases text with
        | nil => cases found
        | cons char text =>
            rw [after?, Option.ite_none_right_eq_some] at found
            rw [← found.1, List.cons_append, induction found.2]
  · intro equal
    rw [equal, after?_append]

theorem after?_append_append (first second text : List Char) :
    after? (first ++ second) (first ++ text) = after? second text := by
  induction first with
  | nil => rfl
  | cons char first induction => simpa [after?] using induction

end Text

namespace Sql

/-! ## Readers -/

def readInside? (quote : Char) : List Char → Option (List Char × List Char)
  | [] => none
  | [last] => if last = quote then some ([], []) else none
  | first :: second :: rest =>
      if first ≠ quote then (readInside? quote (second :: rest)).map (Prod.map (first :: ·) id)
      else if second ≠ quote then some ([], second :: rest)
      else (readInside? quote rest).map (Prod.map (quote :: ·) id)

def readEnclosed? (quote : Char) : List Char → Option (String × List Char)
  | [] => none
  | first :: rest =>
      if first = quote then (readInside? quote rest).map (Prod.map String.ofList id) else none

def isWordStart (char : Char) : Bool :=
  char == '_' || (decide ('a' ≤ char) && decide (char ≤ 'z'))

def isWordPart (char : Char) : Bool :=
  isWordStart char || (decide ('0' ≤ char) && decide (char ≤ '9'))

def readWord? (family : Family) : List Char → Option (String × List Char)
  | [] => none
  | first :: rest =>
      let word := String.ofList (first :: rest.takeWhile isWordPart)
      if isWordStart first && !(reservedWords family).contains word then
        some (word, rest.dropWhile isWordPart)
      else none

/-- A name, and what follows it: a text between double quotes or a word. -/
def readName? (family : Family) (text : List Char) : Option (String × List Char) :=
  (readEnclosed? '"' text).or (readWord? family text)

def readQualified? (family : Family) (text : List Char) : Option (QualifiedName × List Char) :=
  match readName? family text with
  | some (schema, '.' :: rest) =>
      (readName? family rest).map fun (name, rest) => (⟨some schema, name⟩, rest)
  | some (name, rest) => some (⟨none, name⟩, rest)
  | none => none

/-- The names in front of a closing parenthesis, with commas between them, and what follows it. -/
def readNames? (family : Family) (text : List Char) : Option (List String × List Char) :=
  match readName? family text with
  | some (name, ')' :: rest) => some ([name], rest)
  | some (name, ',' :: ' ' :: rest) =>
      if rest.length < text.length then
        (readNames? family rest).map (Prod.map (name :: ·) id)
      else none
  | _ => none
termination_by text.length

/-- A literal, and what follows it. -/
def readLiteral? : List Char → Option (String × List Char) :=
  readEnclosed? '\''

/-- The characters of a text that stand outside of double quotes, when its beginning stands inside
of them or not. -/
def unquoted (inside : Bool) : List Char → List Char
  | [] => []
  | char :: rest =>
      if char = '"' then unquoted (!inside) rest
      else if inside then unquoted inside rest
      else char :: unquoted inside rest

/-! ## Text between quotes -/

section

variable {quote char : Char} {text rest : List Char}

def doubled (quote : Char) (text : List Char) : List Char :=
  text.flatMap fun char => if char = quote then [quote, quote] else [char]

theorem enclose_eq : enclose quote text = quote :: (doubled quote text ++ [quote]) :=
  rfl

@[simp] theorem doubled_nil : doubled quote [] = [] :=
  rfl

@[simp] theorem doubled_cons_self :
    doubled quote (quote :: text) = quote :: quote :: doubled quote text := by
  simp [doubled]

theorem doubled_cons_of_ne (other : char ≠ quote) :
    doubled quote (char :: text) = char :: doubled quote text := by
  simp [doubled, other]

theorem doubled_of_not_mem (free : quote ∉ text) : doubled quote text = text := by
  induction text with
  | nil => rfl
  | cons char text induction =>
      rw [List.mem_cons, not_or] at free
      rw [doubled_cons_of_ne (Ne.symm free.1), induction free.2]

theorem doubled_append : doubled quote (text ++ rest) = doubled quote text ++ doubled quote rest :=
  List.flatMap_append

theorem readInside?_cons_of_ne (other : char ≠ quote) :
    readInside? quote (char :: text) =
      (readInside? quote text).map (Prod.map (char :: ·) id) := by
  cases text with
  | nil => simp [readInside?, other]
  | cons second rest => simp [readInside?, other]

theorem readInside?_closing (ends : rest.head? ≠ some quote) :
    readInside? quote (quote :: rest) = some ([], rest) := by
  cases rest with
  | nil => simp [readInside?]
  | cons second rest =>
      have other : second ≠ quote := fun same => ends (congrArg some same)
      simp [readInside?, other]

theorem readInside?_doubled (ends : rest.head? ≠ some quote) :
    readInside? quote (doubled quote text ++ quote :: rest) = some (text, rest) := by
  induction text with
  | nil => exact readInside?_closing ends
  | cons char text induction =>
      rcases eq_or_ne char quote with rfl | other
      · rw [doubled_cons_self, List.cons_append, List.cons_append, readInside?, induction]
        simp
      · rw [doubled_cons_of_ne other, List.cons_append, readInside?_cons_of_ne other, induction]
        simp

theorem readEnclosed?_enclose (ends : rest.head? ≠ some quote) :
    readEnclosed? quote (enclose quote text ++ rest) = some (String.ofList text, rest) := by
  rw [enclose_eq, List.cons_append, List.append_assoc, List.singleton_append, readEnclosed?,
    if_pos rfl, readInside?_doubled ends]
  rfl

theorem unquoted_doubled : unquoted true (doubled '"' text ++ rest) = unquoted true rest := by
  induction text with
  | nil => rfl
  | cons char text induction =>
      rcases eq_or_ne char '"' with rfl | other
      · simpa [unquoted] using induction
      · simpa [doubled_cons_of_ne other, unquoted, other] using induction

theorem unquoted_enclose : unquoted false (enclose '"' text ++ rest) = unquoted false rest := by
  rw [enclose_eq, List.cons_append, List.append_assoc, unquoted, if_pos rfl, Bool.not_false,
    unquoted_doubled]
  rfl

end

/-! ## Bare names -/

section

variable {family : Family} {name : String} {char : Char} {word rest : List Char}

theorem isWordPart_eq_isBareChar : isWordPart = isBareChar := by
  funext char
  have letter : char.isLower = (decide ('a' ≤ char) && decide (char ≤ 'z')) := rfl
  have digit : char.isDigit = (decide ('0' ≤ char) && decide (char ≤ '9')) := rfl
  rw [isWordPart, isWordStart, isBareChar, letter, digit, Bool.or_assoc, Bool.or_comm]

theorem isWordStart_of_bare (bare : isBareChar char = true) (letter : char.isDigit = false) :
    isWordStart char = true := by
  rw [← isWordPart_eq_isBareChar, isWordPart, Bool.or_eq_true] at bare
  rcases bare with start | digit
  · exact start
  · have same : (decide ('0' ≤ char) && decide (char ≤ '9')) = char.isDigit := rfl
    rw [same, letter] at digit
    cases digit

theorem toLower_of_bare (bare : isBareChar char = true) : char.toLower = char := by
  rcases eq_or_ne char '_' with rfl | other
  · rfl
  · have small : ¬(char.val ≥ 'A'.val ∧ char.val ≤ 'Z'.val) := by
      rw [← isWordPart_eq_isBareChar] at bare
      simp only [isWordPart, isWordStart, Char.le_def] at bare
      grind
    exact dif_neg small

theorem lowered_of_bare (bare : ∀ char ∈ name.toList, isBareChar char = true) :
    Text.lowered name = name := by
  have same : Text.lower name.toList = name.toList :=
    (List.map_congr_left fun char member => toLower_of_bare (bare char member)).trans
      (List.map_id' _)
  rw [Text.lowered, same, String.ofList_toList]

theorem word_of_needsQuoting (bare : needsQuoting family name = false) :
    ∃ first others, name.toList = first :: others ∧ isWordStart first = true ∧
      (∀ char ∈ others, isWordPart char = true) ∧ name ∉ reservedWords family := by
  unfold needsQuoting at bare
  split at bare
  · cases bare
  · rename_i first others chars
    simp only [Bool.or_eq_false_iff, Bool.not_eq_false', List.all_eq_true] at bare
    rcases bare with ⟨⟨letter, bare⟩, free⟩
    refine ⟨first, others, chars, isWordStart_of_bare (bare first List.mem_cons_self) letter,
      fun char member => ?_, ?_⟩
    · rw [isWordPart_eq_isBareChar]
      exact bare char (List.mem_cons_of_mem _ member)
    · rw [isReserved, lowered_of_bare (by rwa [chars])] at free
      simpa using free

theorem wordPart_ne (part : isWordPart char = true) : char ≠ '"' ∧ char ≠ '.' := by
  constructor <;>
  · rintro rfl
    revert part
    decide

theorem isWordPart_of_start (start : isWordStart char = true) : isWordPart char = true :=
  Bool.or_eq_true_iff.mpr (.inl start)

theorem takeWhile_wordParts (parts : ∀ char ∈ word, isWordPart char = true)
    (ends : ∀ next ∈ rest.head?, isWordPart next = false) :
    (word ++ rest).takeWhile isWordPart = word ∧ (word ++ rest).dropWhile isWordPart = rest := by
  rw [List.takeWhile_append_of_pos parts, List.dropWhile_append_of_pos parts]
  cases rest with
  | nil => simp
  | cons next rest => simp [ends next rfl]

theorem readWord?_append (start : isWordStart char = true)
    (parts : ∀ other ∈ word, isWordPart other = true)
    (free : String.ofList (char :: word) ∉ reservedWords family)
    (ends : ∀ next ∈ rest.head?, isWordPart next = false) :
    readWord? family (char :: (word ++ rest)) = some (String.ofList (char :: word), rest) := by
  rcases takeWhile_wordParts parts ends with ⟨taken, left⟩
  have unreserved : (reservedWords family).contains (String.ofList (char :: word)) = false := by
    simpa using free
  rw [readWord?, taken, left, start, unreserved]
  rfl

theorem unquoted_append (parts : ∀ char ∈ word, isWordPart char = true) :
    unquoted false (word ++ rest) = word ++ unquoted false rest := by
  induction word with
  | nil => rfl
  | cons char word induction =>
      rw [List.cons_append, unquoted, if_neg (wordPart_ne (parts char List.mem_cons_self)).1,
        if_neg Bool.false_ne_true, induction fun other member => parts other (.tail _ member),
        List.cons_append]

end

/-! ## Names -/

section

variable {family : Family} {name : String} {rest : List Char}

def EndsName (char : Char) : Prop :=
  isWordPart char = false ∧ char ≠ '"'

theorem endsName_blank : ∀ next ∈ (' ' :: rest).head?, EndsName next ∧ next ≠ '.' := by
  simp only [List.head?_cons, Option.mem_some, forall_eq', EndsName]
  decide

theorem endsName_parenthesis : ∀ next ∈ (')' :: rest).head?, EndsName next := by
  simp only [List.head?_cons, Option.mem_some, forall_eq', EndsName]
  decide

theorem endsName_comma : ∀ next ∈ (',' :: rest).head?, EndsName next := by
  simp only [List.head?_cons, Option.mem_some, forall_eq', EndsName]
  decide

theorem readName?_identifier (ends : ∀ next ∈ rest.head?, EndsName next) :
    readName? family ((identifier family name).toList ++ rest) = some (name, rest) := by
  unfold identifier
  split
  · have closed : rest.head? ≠ some '"' := fun opens => (ends _ opens).2 rfl
    rw [readName?, String.toList_ofList, readEnclosed?_enclose closed, String.ofList_toList,
      Option.some_or]
  · rename_i bare
    rcases word_of_needsQuoting (Bool.not_eq_true _ ▸ bare) with
      ⟨first, others, chars, start, parts, free⟩
    -- A bare name begins with no quote, so that it is left to the reader of words, and ends where
    -- its characters end.
    have same : String.ofList (first :: others) = name := by
      rw [← chars, String.ofList_toList]
    have notQuote := (wordPart_ne (isWordPart_of_start start)).1
    rw [chars, List.cons_append, readName?, readEnclosed?, if_neg notQuote, Option.none_or,
      readWord?_append start parts (same ▸ free) fun next member => (ends next member).1, same]

theorem count_dot_unquoted_identifier :
    (unquoted false ((identifier family name).toList ++ rest)).count '.' =
      (unquoted false rest).count '.' := by
  unfold identifier
  split
  · rw [String.toList_ofList, unquoted_enclose]
  · rename_i bare
    rcases word_of_needsQuoting (Bool.not_eq_true _ ▸ bare) with
      ⟨first, others, chars, start, parts, _⟩
    have parts : ∀ char ∈ name.toList, isWordPart char = true := by
      rw [chars]
      exact List.forall_mem_cons.mpr ⟨isWordPart_of_start start, parts⟩
    have absent : '.' ∉ name.toList := fun dot => (wordPart_ne (parts '.' dot)).2 rfl
    rw [unquoted_append parts, List.count_append, List.count_eq_zero_of_not_mem absent,
      Nat.zero_add]

theorem readName?_identifier_self :
    readName? family (identifier family name).toList = some (name, []) := by
  rw [← List.append_nil (identifier family name).toList]
  exact readName?_identifier nofun

theorem readNames?_append (name : String) (names : List String) :
    readNames? family ((identifierList family (name :: names)).toList ++ ')' :: rest) =
      some (name :: names, rest) := by
  induction names generalizing name with
  | nil =>
      have single : identifierList family [name] = identifier family name :=
        @String.intercalate_singleton ", " _
      rw [readNames?, single, readName?_identifier endsName_parenthesis]
      rfl
  | cons second names induction =>
      have listed : (identifierList family (name :: second :: names)).toList ++ ')' :: rest =
          (identifier family name).toList
            ++ ',' :: ' ' :: ((identifierList family (second :: names)).toList ++ ')' :: rest) := by
        have parts : identifierList family (name :: second :: names) =
            identifier family name ++ ", " ++ identifierList family (second :: names) :=
          String.intercalate_cons_of_ne_nil (List.cons_ne_nil _ _)
        rw [parts, String.toList_append, String.toList_append, List.append_assoc,
          List.append_assoc]
        rfl
      rw [readNames?, listed, readName?_identifier endsName_comma]
      have shorter : ((identifierList family (second :: names)).toList ++ ')' :: rest).length <
          ((identifier family name).toList
            ++ ',' :: ' ' :: ((identifierList family (second :: names)).toList ++ ')' :: rest)
              ).length := by
        simp only [List.length_append, List.length_cons]
        omega
      simp only [if_pos shorter, induction, Option.map_some, Prod.map_apply, id_eq]

theorem toList_qualified (schema : String) :
    (qualified family ⟨some schema, name⟩).toList =
      (identifier family schema).toList ++ '.' :: (identifier family name).toList := by
  simp [qualified]

theorem readQualified?_append (name : QualifiedName)
    (ends : ∀ next ∈ rest.head?, EndsName next ∧ next ≠ '.') :
    readQualified? family ((qualified family name).toList ++ rest) = some (name, rest) := by
  have whole (name : String) :
      readName? family ((identifier family name).toList ++ rest) = some (name, rest) :=
    readName?_identifier fun next member => (ends next member).1
  rcases name with ⟨_ | schema, name⟩
  · rw [qualified, readQualified?, whole]
    split
    · rename_i dotted
      cases dotted
      exact absurd rfl (ends '.' rfl).2
    · rename_i same
      cases same
      rfl
    · rename_i missing
      cases missing
  · have front : readName? family ((qualified family ⟨some schema, name⟩).toList ++ rest) =
        some (schema, '.' :: ((identifier family name).toList ++ rest)) := by
      rw [toList_qualified, List.append_assoc, List.cons_append]
      exact readName?_identifier (by simp [EndsName]; decide)
    simp [readQualified?, front, whole]

theorem readQualified?_qualified (name : QualifiedName) :
    readQualified? family (qualified family name).toList = some (name, []) := by
  rw [← List.append_nil (qualified family name).toList]
  exact readQualified?_append name nofun

theorem count_dot_unquoted_qualified (name : QualifiedName) :
    (unquoted false (qualified family name).toList).count '.' =
      if name.schema.isSome then 1 else 0 := by
  have alone (name : String) : (unquoted false (identifier family name).toList).count '.' = 0 := by
    rw [← List.append_nil (identifier family name).toList, count_dot_unquoted_identifier]
    rfl
  rcases name with ⟨_ | schema, name⟩
  · exact alone name
  · rw [toList_qualified, count_dot_unquoted_identifier]
    simp [unquoted, alone]

theorem readLiteral?_append (text : String) (ends : rest.head? ≠ some '\'') :
    readLiteral? ((literal text).toList ++ rest) = some (text, rest) := by
  rw [readLiteral?, literal, String.toList_ofList, readEnclosed?_enclose ends,
    String.ofList_toList]

theorem readLiteral?_literal (text : String) :
    readLiteral? (literal text).toList = some (text, []) := by
  rw [← List.append_nil (literal text).toList]
  exact readLiteral?_append text nofun

/-- Quotes cannot be left from within. In both families a name is read back as it is, and nothing is
left of its text; so different qualified names are written differently, and a dot stands between
quotes unless it is the one behind a schema. A literal is read back in the same way. -/
theorem quoting_readsBack (family : Family) :
    (∀ name, readName? family (identifier family name).toList = some (name, [])) ∧
    Function.Injective (qualified family) ∧
    (∀ name : QualifiedName, (unquoted false (qualified family name).toList).count '.' =
      if name.schema.isSome then 1 else 0) ∧
    ∀ text, readLiteral? (literal text).toList = some (text, []) := by
  refine ⟨fun _ => readName?_identifier_self, ?_, count_dot_unquoted_qualified,
    readLiteral?_literal⟩
  intro left right same
  have read : readQualified? family (qualified family left).toList = some (left, []) :=
    readQualified?_qualified left
  rw [same, readQualified?_qualified] at read
  cases read
  rfl

example : readName? .sqlite "\"a\"\"b\" integer".toList = some ("a\"b", " integer".toList) := by
  decide +kernel

end

end Sql

end SchemaDdl
