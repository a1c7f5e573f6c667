import SchemaDdl.Change.Column
import SchemaDdl.Proofs.Text.Splitting

/-!
# Changes of a type that are overlooked

Two versions of a column are compared by a signature of their types. Of what stands between the
parentheses of a type it holds the numbers and nothing else, so that a change of any other entry
goes unnoticed. All other changes of a type are seen.
-/

namespace SchemaDdl

namespace DeclaredType

/-! ## Numbers in small letters -/

theorem isDigit_toLower (char : Char) : char.toLower.isDigit = char.isDigit := by
  unfold Char.toLower Char.isDigit
  split <;> grind

theorem toLower_of_isDigit {char : Char} (digit : char.isDigit = true) : char.toLower = char := by
  unfold Char.isDigit at digit
  unfold Char.toLower
  split <;> grind

theorem toLower_eq_plus {char : Char} : char.toLower = '+' ↔ char = '+' := by
  unfold Char.toLower
  rw [Char.ext_iff, Char.ext_iff]
  split <;> grind

theorem lower_of_digits {digits : List Char} (decimal : digits.all Char.isDigit = true) :
    Text.lower digits = digits :=
  (List.map_congr_left fun char member =>
    toLower_of_isDigit (List.all_eq_true.mp decimal char member)).trans (List.map_id' _)

theorem all_isDigit_lower (text : List Char) :
    (Text.lower text).all Char.isDigit = text.all Char.isDigit := by
  simp [Text.lower, Function.comp_def, isDigit_toLower]

theorem number?_of_unsigned {text : List Char} (unsigned : text.head? ≠ some '+') :
    number? text = number? ('+' :: text) := by
  unfold number?
  split
  · exact absurd rfl unsigned
  · rfl

theorem number?_plus_of_not_digits {text : List Char} (other : text.all Char.isDigit = false) :
    number? ('+' :: text) = none := by
  simp [number?, other]

theorem number?_lower (text : List Char) : number? (Text.lower text) = number? text := by
  have signed (digits : List Char) :
      number? ('+' :: Text.lower digits) = number? ('+' :: digits) := by
    cases decimal : digits.all Char.isDigit with
    | true => rw [lower_of_digits decimal]
    | false =>
      rw [number?_plus_of_not_digits decimal,
        number?_plus_of_not_digits ((all_isDigit_lower digits).trans decimal)]
  rcases text with _ | ⟨first, rest⟩
  · rfl
  · by_cases plus : first = '+'
    · rw [plus]
      exact signed rest
    · have front : (first :: rest).head? ≠ some '+' := mt Option.some.inj plus
      have lowered : (Text.lower (first :: rest)).head? ≠ some '+' :=
        fun same => plus (toLower_eq_plus.mp (Option.some.inj same))
      rw [number?_of_unsigned front, number?_of_unsigned lowered, signed]

/-! ## Entries between parentheses -/

/-- The texts between parentheses; of one that is open, the characters read so far are given, the
last one first. -/
def parenthesized : Option (List Char) → List Char → List (List Char)
  | _, [] => []
  | none, char :: rest =>
      if char = '(' then parenthesized (some []) rest else parenthesized none rest
  | some inside, char :: rest =>
      if char = ')' then inside.reverse :: parenthesized none rest
      else parenthesized (some (char :: inside)) rest

theorem head?_parenthesized_some (inside text : List Char) :
    (parenthesized (some inside) text).head? =
      (Text.splitFirst ')' text).map fun parts => inside.reverse ++ parts.1 := by
  induction text generalizing inside with
  | nil => rfl
  | cons char rest induction =>
    by_cases closes : char = ')'
    · simp [parenthesized, Text.splitFirst, closes]
    · simp [parenthesized, Text.splitFirst, closes, induction, Function.comp_def]

theorem head?_parenthesized (declared : String) :
    (parenthesized none declared.toList).head? = modifierText? declared := by
  unfold modifierText?
  induction declared.toList with
  | nil => rfl
  | cons char rest induction =>
    by_cases opens : char = '('
    · simp [parenthesized, Text.splitFirst, opens, head?_parenthesized_some]
    · rw [parenthesized, if_neg opens, induction, Text.splitFirst, if_neg opens]
      cases Text.splitFirst '(' rest <;> rfl

/-- The entries of a text between parentheses, numbers or not, without the blanks around them and in
small letters. -/
def entriesIn (text : List Char) : List (List Char) :=
  (Text.pieces (· == ',') text).map fun piece => Text.lower (Text.trim piece)

/-- The entries of a declared type, those of each pair of parentheses on their own. -/
def entries (declared : String) : List (List (List Char)) :=
  (parenthesized none declared.toList).map entriesIn

/-- The entries between the first parentheses, where there are any. -/
def firstEntries (declared : String) : List (List Char) :=
  (entries declared).headD []

theorem firstEntries_eq (declared : String) :
    firstEntries declared = ((modifierText? declared).map entriesIn).getD [] := by
  rw [firstEntries, entries, List.headD_eq_head?_getD, List.head?_map, head?_parenthesized]

theorem modifiers_eq_filterMap (declared : String) :
    modifiers declared = (firstEntries declared).filterMap number? := by
  rw [firstEntries_eq, modifiers]
  cases modifierText? declared with
  | none => rfl
  | some text =>
    have same : (number? ∘ fun piece => Text.lower (Text.trim piece)) =
        fun piece => number? (Text.trim piece) := funext fun piece => number?_lower _
    rw [Option.map_some, Option.getD_some, entriesIn, List.filterMap_map, same]

theorem not_mem_entries (declared : String) : [] ∉ entries declared := by
  intro member
  rcases List.mem_map.mp member with ⟨text, _, empty⟩
  have none : Text.pieces (· == ',') text = [] := List.map_eq_nil_iff.mp empty
  rw [Text.pieces_eq_splitOnP] at none
  exact List.splitOnP_ne_nil _ _ none

theorem entries_eq_iff {first second : String} :
    entries first = entries second ↔
      firstEntries first = firstEntries second ∧ (entries first).tail = (entries second).tail := by
  have left := not_mem_entries first
  have right := not_mem_entries second
  unfold firstEntries
  generalize entries first = groups at left ⊢
  generalize entries second = others at right ⊢
  rcases groups with _ | ⟨group, groups⟩ <;> rcases others with _ | ⟨other, others⟩
  · simp
  · have filled : [] ≠ other := fun empty => right (empty ▸ List.mem_cons_self)
    simp [filled]
  · have filled : group ≠ [] := fun empty => left (empty ▸ List.mem_cons_self)
    simp [filled]
  · simp

def isNumeral (entry : List Char) : Bool :=
  (number? entry).isSome

/-- An entry that is no number; a number leaves an empty place. -/
def word? (entry : List Char) : Option (List Char) :=
  if isNumeral entry then none else some entry

theorem eq_iff_words_numerals {first second : List (List Char)} :
    first = second ↔ first.map word? = second.map word? ∧
      first.filter isNumeral = second.filter isNumeral := by
  constructor
  · rintro rfl
    exact ⟨rfl, rfl⟩
  · rintro ⟨words, numerals⟩
    induction first generalizing second with
    | nil => exact (List.map_eq_nil_iff.mp words.symm).symm
    | cons entry first induction =>
      rcases second with _ | ⟨other, second⟩
      · cases words
      · rw [List.map_cons, List.map_cons, List.cons.injEq] at words
        -- Words stand against words, and numbers against numbers.
        cases left : isNumeral entry with
        | true =>
          cases right : isNumeral other with
          | true =>
            rw [List.filter_cons_of_pos left, List.filter_cons_of_pos right,
              List.cons.injEq] at numerals
            rw [numerals.1, induction words.2 numerals.2]
          | false => simp [word?, left, right] at words
        | false =>
          cases right : isNumeral other with
          | true => simp [word?, left, right] at words
          | false =>
            have same : entry = other := by simpa [word?, left, right] using words.1
            rw [List.filter_cons_of_neg (by simp [left]),
              List.filter_cons_of_neg (by simp [right])] at numerals
            rw [same, induction words.2 numerals]

end DeclaredType

/-! ## Types of two versions -/

namespace ColumnChange

open DeclaredType

/-- Whether two columns have the same type, spelled in one way or another. -/
structure SameType (old new : Column) : Prop where
  base : old.canonicalType = new.canonicalType
  array : old.isArray = new.isArray
  collation : old.collation = new.collation
  entries : entries old.dataType = entries new.dataType

/-- Whether nothing says that the type differs between two versions of a column: they are not told
apart at all, or not by their types. -/
def OverlooksType (old new : Column) : Prop :=
  ∀ change, between? old new = some change → change.typeChanged = false

variable {old new : Column}

theorem between?_eq_some_iff {change : ColumnChange} :
    between? old new = some change ↔ change.isChange = true ∧ ⟨old, new⟩ = change := by
  constructor
  · intro found
    rw [between?] at found
    rcases Option.ite_none_right_eq_some.mp found with ⟨changed, equal⟩
    cases equal
    exact ⟨changed, rfl⟩
  · rintro ⟨changed, rfl⟩
    rw [between?]
    exact if_pos changed

theorem overlooksType_iff_typeChanged :
    OverlooksType old new ↔ typeChanged ⟨old, new⟩ = false := by
  constructor
  · intro overlooks
    cases changed : isChange ⟨old, new⟩ with
    | true => exact overlooks _ (between?_eq_some_iff.mpr ⟨changed, rfl⟩)
    | false =>
      simp only [isChange, isStructural, Bool.or_eq_false_iff] at changed
      simp only [changed]
  · intro unchanged change found
    rw [← (between?_eq_some_iff.mp found).2]
    exact unchanged

theorem typeChanged_eq_false_iff :
    typeChanged ⟨old, new⟩ = false ↔
      old.canonicalType = new.canonicalType ∧ old.isArray = new.isArray ∧
        old.collation = new.collation ∧
        (firstEntries old.dataType).filterMap number? =
          (firstEntries new.dataType).filterMap number? := by
  simp only [typeChanged, typeSignature, Bool.or_eq_false_iff, bne_eq_false_iff_eq, Prod.mk.injEq,
    modifiers_eq_filterMap]
  constructor
  · rintro ⟨⟨base, numbers, array⟩, collation⟩
    exact ⟨base, array, collation, numbers⟩
  · rintro ⟨base, array, collation, numbers⟩
    exact ⟨⟨base, numbers, array⟩, collation⟩

/-- The type of a column is overlooked where the base names, the marks of arrays and the collations
agree and the same numbers stand between the first parentheses. It may be another type all the same:
it is the old one only where the words between the first parentheses are the same, each at its
place, the numbers among them are spelled alike, and nothing differs in any later parentheses. -/
theorem overlooksType_iff (old new : Column) :
    (OverlooksType old new ↔
      old.canonicalType = new.canonicalType ∧ old.isArray = new.isArray ∧
        old.collation = new.collation ∧
        (firstEntries old.dataType).filterMap number? =
          (firstEntries new.dataType).filterMap number?) ∧
    (OverlooksType old new → (SameType old new ↔
      (firstEntries old.dataType).map word? = (firstEntries new.dataType).map word? ∧
        (firstEntries old.dataType).filter isNumeral =
          (firstEntries new.dataType).filter isNumeral ∧
        (entries old.dataType).tail = (entries new.dataType).tail)) := by
  refine ⟨overlooksType_iff_typeChanged.trans typeChanged_eq_false_iff, fun overlooks => ?_⟩
  obtain ⟨base, array, collation, _⟩ :=
    typeChanged_eq_false_iff.mp (overlooksType_iff_typeChanged.mp overlooks)
  rw [← and_assoc, ← eq_iff_words_numerals, ← entries_eq_iff]
  exact ⟨fun same => same.entries, fun same => ⟨base, array, collation, same⟩⟩

end ColumnChange

/-! ## An example -/

namespace EntriesExample

def area (shape : String) : Column := { name := "area", dataType := shape }

end EntriesExample

open EntriesExample in
/-- An area turns from a point into a polygon, and the two columns count as the same. -/
theorem overlooksType_area :
    (area "geometry(Point, 4326)").name = (area "geometry(Polygon, 4326)").name ∧
      ColumnChange.between? (area "geometry(Point, 4326)") (area "geometry(Polygon, 4326)") = none ∧
      ¬ColumnChange.SameType (area "geometry(Point, 4326)") (area "geometry(Polygon, 4326)") := by
  refine ⟨rfl, ?_, fun same => absurd same.entries (by decide +kernel)⟩
  rw [Option.eq_none_iff_forall_ne_some]
  intro change found
  rcases ColumnChange.between?_eq_some_iff.mp found with ⟨changed, rfl⟩
  exact absurd changed (by decide +kernel)

end SchemaDdl
