import SchemaDdl.Proofs.Number.Numeral
import SchemaDdl.Sql.DefaultClause

/-!
# Defaults that are no value

A default may spell the keyword for no value. It is written as that keyword in every dialect then,
and no other default is.
-/

namespace SchemaDdl

namespace Text

theorem fold_of_isNumeral {char : Char} (numeral : isNumeral char = true) : fold char = char := by
  have each : ∀ code : Fin 64, isNumeral (Char.ofNat code) = true →
      fold (Char.ofNat code) = Char.ofNat code := by
    decide +kernel
  have small : char.toNat < 64 := by
    simp only [isNumeral, Bool.or_eq_true, beq_iff_eq] at numeral
    rcases numeral with (digit | rfl) | rfl
    · have upper : char.toNat ≤ 57 := (Bool.and_eq_true_iff.mp digit).2 |> of_decide_eq_true
      omega
    · decide
    · decide
  have same := each ⟨char.toNat, small⟩
  rw [Char.ofNat_toNat] at same
  exact same numeral

end Text

/-- Whether a default is no value: the null literal, or the keyword spelled in an expression or in a
string, with blanks around it or none. -/
def Default.SpellsNull : Default → Prop
  | .literal .null => True
  | .literal (.string text) | .raw text =>
      Text.foldAll (Text.trim text.toList) = ['n', 'u', 'l', 'l']
  | .literal _ | .sentinel _ => False

namespace Sql

/-! ## The keyword for no value -/

def IsNull (text : String) : Prop :=
  Text.foldAll text.toList = ['n', 'u', 'l', 'l']

instance (text : String) : Decidable (IsNull text) :=
  inferInstanceAs (Decidable (Text.foldAll text.toList = ['n', 'u', 'l', 'l']))

theorem not_isNull_of_head {text : String} {char : Char}
    (opening : text.toList.head? = some char) (other : Text.fold char ≠ 'n') : ¬IsNull text := by
  intro null
  rcases List.head?_eq_some_iff.mp opening with ⟨rest, whole⟩
  rw [IsNull, whole, Text.foldAll, List.map_cons] at null
  exact other (List.cons.inj null).1

theorem not_isNull_of_numeral {text : String} (numeral : Text.Numeral text.toList) :
    ¬IsNull text := by
  intro null
  have same : Text.foldAll text.toList = text.toList :=
    (List.map_congr_left fun char member => Text.fold_of_isNumeral (numeral char member)).trans
      (List.map_id' _)
  rw [IsNull, same] at null
  rw [null] at numeral
  exact absurd numeral (by decide)

theorem not_isNull_literal (text : String) : ¬IsNull (literal text) :=
  not_isNull_of_head (by simp [literal, enclose]) (by decide : Text.fold '\'' ≠ 'n')

theorem not_isNull_typedLiteral (family : Family) (column : Column) (text : String) :
    ¬IsNull (typedLiteral family column text) := by
  cases family with
  | sqlite => exact not_isNull_literal text
  | postgres =>
      have opening : (typedLiteral .postgres column text).toList.head? = some '\'' := by
        simp [typedLiteral, literal, enclose]
      exact not_isNull_of_head opening (by decide)

theorem not_isNull_sqliteRandomUuid : ¬IsNull sqliteRandomUuid := by
  have opening : sqliteRandomUuid.toList.head? = some '(' := by
    unfold sqliteRandomUuid
    simp only [String.toList_append]
    rfl
  exact not_isNull_of_head opening (by decide)

theorem isNull_expressionDefault (family : Family) (expression : String) :
    IsNull (expressionDefault family expression) ↔
      Text.foldAll (Text.trim expression.toList) = ['n', 'u', 'l', 'l'] := by
  simp only [expressionDefault]
  split
  · rw [IsNull, String.toList_ofList]
  · rename_i bare
    have enclosed : ¬IsNull ("(" ++ String.ofList (Text.trim expression.toList) ++ ")") :=
      not_isNull_of_head (by simp) (by decide : Text.fold '(' ≠ 'n')
    refine iff_of_false enclosed fun keyword => bare ?_
    have constant : isConstant (Text.trim expression.toList) = true := by
      simp [isConstant, isOneOf, constantKeywords, keyword]
    rw [constant, Bool.or_true, Bool.true_or]

/-! ## Defaults as they are written -/

variable {capabilities : Capabilities} {column : Column} {text : String}

theorem not_isNull_sentinelDefault {sentinel : Sentinel}
    (written : sentinelDefault capabilities column sentinel = .ok text) : ¬IsNull text := by
  have typed := not_isNull_typedLiteral capabilities.family column
  cases sentinel with
  | emptyObject =>
      simp only [sentinelDefault] at written
      split at written
      · cases written; exact typed _
      · split at written
        · cases written; exact not_isNull_literal _
        · cases written
  | emptyArray =>
      simp only [sentinelDefault] at written
      split at written
      · cases written; exact typed _
      · split at written
        · cases written; exact typed _
        · split at written
          · cases written; exact not_isNull_literal _
          · cases written
  | genRandomUuid =>
      simp only [sentinelDefault] at written
      split at written <;> cases written
      · decide
      · exact not_isNull_sqliteRandomUuid
  | currentTimestamp => cases written; decide
  | currentDate => cases written; decide
  | uniqueRowId =>
      simp only [sentinelDefault] at written
      split at written <;> cases written
      decide

theorem not_isNull_jsonDefault {value : Json.Value}
    (written : jsonDefault capabilities.family column value = .ok text) : ¬IsNull text := by
  have typed := not_isNull_typedLiteral capabilities.family column
  unfold jsonDefault at written
  split at written
  · split at written
    · split at written <;> cases written
      exact typed _
    · cases written
  · split at written <;> cases written
    · exact typed _
    · exact not_isNull_literal _

theorem isExpression_of_spellsNull {value : String}
    (null : (Default.literal (.string value)).SpellsNull) : isExpression value = true := by
  have spelled : Text.foldAll (Text.trim value.toList) = ['n', 'u', 'l', 'l'] := null
  simp [isExpression, isExpressionText, isOneOf, valueKeywords, spelled]

theorem isNull_writtenDefault_iff {value : Default}
    (written : writtenDefault capabilities column value = .ok text) :
    IsNull text ↔ value.SpellsNull := by
  cases value with
  | raw expression => cases written; exact isNull_expressionDefault _ _
  | sentinel sentinel => exact iff_of_false (not_isNull_sentinelDefault written) id
  | literal value =>
      cases value with
      | null => cases written; exact iff_of_true (by decide) trivial
      | boolean value =>
          cases written
          refine iff_of_false ?_ id
          cases capabilities.family <;> cases value <;> decide
      | integer value =>
          cases written
          exact iff_of_false (not_isNull_of_numeral (Text.numeral_toString_int value)) id
      | float value =>
          simp only [writtenDefault, literalDefault] at written
          split at written <;> cases written
          exact iff_of_false (not_isNull_of_numeral (Binary64.numeral_toPlain ‹_›)) id
      | string value =>
          simp only [writtenDefault, literalDefault] at written
          split at written <;> cases written
          · exact isNull_expressionDefault _ _
          · rename_i plain
            exact iff_of_false (not_isNull_literal value) fun spelled =>
              plain (isExpression_of_spellsNull spelled)
      | json value => exact iff_of_false (not_isNull_jsonDefault written) id

end Sql

end SchemaDdl
