import SchemaDdl.Json.Printer
import SchemaDdl.Proofs.Number.Numeral
import SchemaDdl.Sql.DefaultClause
import SchemaDdl.Writing.Target

/-!
# Texts on one line

Names and literals are written on one line when they hold no line break themselves, and numbers and
data always are: a line break in data is escaped.
-/

namespace SchemaDdl

namespace Text

def OneLine (text : String) : Prop :=
  '\n' ∉ text.toList

instance (text : String) : Decidable (OneLine text) :=
  inferInstanceAs (Decidable ('\n' ∉ text.toList))

theorem toString_string (text : String) : toString text = text :=
  rfl

@[simp] theorem oneLine_append {left right : String} :
    OneLine (left ++ right) ↔ OneLine left ∧ OneLine right := by
  simp [OneLine]

@[simp] theorem oneLine_ofList {text : List Char} : OneLine (String.ofList text) ↔ '\n' ∉ text := by
  simp [OneLine]

theorem oneLine_intercalate {separator : String} {texts : List String} (between : OneLine separator)
    (each : ∀ text ∈ texts, OneLine text) : OneLine (separator.intercalate texts) := by
  induction texts with
  | nil =>
      rw [String.intercalate_nil]
      exact List.not_mem_nil
  | cons text others induction =>
      rw [List.forall_mem_cons] at each
      cases others with
      | nil => simpa using each.1
      | cons next others =>
          rw [String.intercalate_cons_cons, oneLine_append, oneLine_append]
          exact ⟨⟨each.1, between⟩, induction each.2⟩

theorem oneLine_listed {texts : List String} (each : ∀ text ∈ texts, OneLine text) :
    OneLine (listed texts) :=
  oneLine_intercalate (by decide) each

theorem oneLine_stringJoin {texts : List String} (each : ∀ text ∈ texts, OneLine text) :
    OneLine (String.join texts) := by
  unfold OneLine
  rw [String.toList_join, List.mem_flatMap]
  intro found
  rcases found with ⟨text, member, broken⟩
  exact each text member broken

theorem not_mem_trim {char : Char} {text : List Char} (absent : char ∉ text) :
    char ∉ trim text := by
  intro member
  have member := List.mem_reverse.mp member
  have member := List.mem_reverse.mp ((List.dropWhile_sublist _).mem member)
  exact absent ((List.dropWhile_sublist _).mem member)

end Text

open Text

/-! ## Phrases -/

namespace Target

theorem oneLine_phrase {condition : Bool} {text : String}
    (holds : condition = true → OneLine text) : OneLine (phrase condition text) := by
  unfold phrase
  split
  · exact holds ‹_›
  · decide

theorem oneLine_phraseIfSome {α : Type} {value : Option α} {text : α → String}
    (holds : ∀ item ∈ value, OneLine (text item)) : OneLine (phraseIfSome value text) := by
  cases value with
  | none => exact List.not_mem_nil
  | some item => exact holds item rfl

end Target

/-! ## Names and literals -/

namespace Sql

theorem newline_mem_enclose {quote : Char} (other : '\n' ≠ quote) {text : List Char} :
    '\n' ∈ enclose quote text ↔ '\n' ∈ text := by
  have inside : '\n' ∈ text.flatMap (fun c => if c = quote then [quote, quote] else [c]) ↔
      '\n' ∈ text := by
    rw [List.mem_flatMap]
    constructor
    · intro found
      rcases found with ⟨char, member, equal⟩
      split at equal
      · simp [other] at equal
      · rw [List.mem_singleton.mp equal]
        exact member
    · intro member
      exact ⟨'\n', member, by rw [if_neg other]; exact List.mem_singleton_self _⟩
  simp [enclose, other, inside]

@[simp] theorem oneLine_identifier {family : Family} {name : String} :
    OneLine (identifier family name) ↔ OneLine name := by
  unfold identifier
  split
  · rw [oneLine_ofList, newline_mem_enclose (by decide), OneLine]
  · exact Iff.rfl

@[simp] theorem oneLine_literal {text : String} : OneLine (literal text) ↔ OneLine text := by
  rw [literal, oneLine_ofList, newline_mem_enclose (by decide), OneLine]

theorem oneLine_identifierList {family : Family} {names : List String}
    (each : ∀ name ∈ names, OneLine name) : OneLine (identifierList family names) := by
  apply oneLine_listed
  intro text member
  rcases List.mem_map.mp member with ⟨name, among, rfl⟩
  exact oneLine_identifier.mpr (each name among)

end Sql

/-! ## Numbers -/

theorem oneLine_of_numeral {text : String} (numeral : Numeral text.toList) : OneLine text :=
  numeral.not_mem (by decide)

theorem oneLine_toString_int (value : Int) : OneLine (toString value) :=
  oneLine_of_numeral (numeral_toString_int value)

namespace Binary64

theorem newline_not_mem_scientific {decimal : Decimal} (digits : '\n' ∉ decimal.digits) :
    '\n' ∉ scientific decimal := by
  unfold scientific
  have power : '\n' ∉ Nat.toDigits 10 decimal.exponent.natAbs :=
    (numeral_toDigits _).not_mem (by decide)
  simp only [List.mem_append, List.mem_cons, not_or]
  refine ⟨⟨?_, by decide, ?_⟩, power⟩
  · split
    · rename_i first second rest equal
      rw [equal] at digits
      simpa using digits
    · exact digits
  · split <;> decide

theorem oneLine_signed {number : Binary64} {text : List Char} (plain : '\n' ∉ text) :
    OneLine (number.signed text) := by
  unfold signed
  rw [oneLine_ofList]
  split
  · simp [plain]
  · exact plain

theorem oneLine_toPlain (number : Binary64) : OneLine number.toPlain := by
  cases finite : number.isFinite with
  | true => exact oneLine_of_numeral (numeral_toPlain finite)
  | false =>
      rw [toPlain, finite, if_neg Bool.false_ne_true]
      split
      · decide
      · exact oneLine_signed (by decide)

theorem oneLine_toData (number : Binary64) : OneLine number.toData := by
  have shortest : '\n' ∉ number.shortest.digits := number.numeral_shortest.not_mem (by decide)
  have digits : '\n' ∉ positional number.shortest :=
    (numeral_positional number.numeral_shortest).not_mem (by decide)
  unfold toData
  simp only []
  split
  · apply oneLine_signed
    split
    · exact digits
    · simp [digits]
  · exact oneLine_signed (newline_not_mem_scientific shortest)

end Binary64

/-! ## Data -/

namespace Json

theorem newline_ne_digitChar {digit : Nat} (small : digit < 16) : '\n' ≠ Nat.digitChar digit := by
  have each : ∀ digit : Fin 16, '\n' ≠ Nat.digitChar digit := by decide
  exact each ⟨digit, small⟩

theorem newline_not_mem_escapeChar (char : Char) : '\n' ∉ escapeChar char := by
  unfold escapeChar
  split
  case h_8 =>
    split
    · rename_i control
      have high := newline_ne_digitChar (show char.toNat / 16 < 16 by omega)
      have low := newline_ne_digitChar (show char.toNat % 16 < 16 by omega)
      simp [high, low]
    · intro member
      have other : char ≠ '\n' := by assumption
      exact other (List.mem_singleton.mp member).symm
  all_goals decide

theorem oneLine_quoted (text : String) : OneLine (quoted text) := by
  unfold quoted
  rw [oneLine_ofList]
  simp [newline_not_mem_escapeChar]

theorem Number.oneLine_text (number : Number) : OneLine number.text := by
  cases number with
  | integer value => exact oneLine_toString_int value
  | float value =>
      rw [Number.text]
      split
      · exact value.oneLine_toData
      · decide

mutual

theorem Value.oneLine_compact (value : Value) : OneLine value.compact := by
  cases value with
  | null => decide
  | unreadable => decide
  | bool value => cases value <;> decide
  | number number => exact number.oneLine_text
  | string text => exact oneLine_quoted text
  | array items =>
      rw [Value.compact, oneLine_append, oneLine_append]
      exact ⟨⟨by decide, oneLine_intercalate (by decide) (oneLine_compactItems items)⟩, by decide⟩
  | object members =>
      rw [Value.compact, oneLine_append, oneLine_append]
      exact ⟨⟨by decide, oneLine_intercalate (by decide) (oneLine_compactMembers members)⟩,
        by decide⟩

theorem oneLine_compactItems (items : List Value) : ∀ text ∈ compactItems items, OneLine text := by
  cases items with
  | nil => exact fun _ member => absurd member List.not_mem_nil
  | cons item items =>
      rw [compactItems, List.forall_mem_cons]
      exact ⟨item.oneLine_compact, oneLine_compactItems items⟩

theorem oneLine_compactMembers (members : List (String × Value)) :
    ∀ text ∈ compactMembers members, OneLine text := by
  cases members with
  | nil => exact fun _ member => absurd member List.not_mem_nil
  | cons member members =>
      rcases member with ⟨key, value⟩
      rw [compactMembers, List.forall_mem_cons, oneLine_append, oneLine_append]
      exact ⟨⟨⟨oneLine_quoted key, by decide⟩, value.oneLine_compact⟩,
        oneLine_compactMembers members⟩

end

end Json

end SchemaDdl
