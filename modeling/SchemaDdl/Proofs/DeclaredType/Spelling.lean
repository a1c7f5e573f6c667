import Mathlib.Data.List.Forall2
import SchemaDdl.DeclaredType
import SchemaDdl.Proofs.Success
import SchemaDdl.Proofs.Text.Splitting

/-!
# How types are spelled

A declared type is a name in letters of any case, with any blanks between its words, and it may have
modifiers in one pair of parentheses behind any of them. Its base name and its modifiers are read as
they are spelled.
-/

namespace SchemaDdl.DeclaredType

/-! ## Names and modifiers -/

def isBracket (char : Char) : Bool :=
  char == '(' || char == '[' || char == ')' || char == ']'

/-- Whether a text without brackets has the words of a name, in letters of any case. -/
structure SpellsName (text : List Char) (name : String) : Prop where
  plain : text.any isBracket = false
  words : Text.words (Text.lower text) = Text.words (Text.lower name.toList)

/-- Whether a piece of a text is a number of at most 32 bits in ASCII digits, with blanks around it
and no other sign than a plus. -/
inductive SpellsNumber : List Char → Nat → Prop
  | of {before digits solid after : List Char} {value : Nat}
      (leading : before.all Text.isBlank = true) (trailing : after.all Text.isBlank = true)
      (unsigned : solid = digits ∨ solid = '+' :: digits) (nonempty : digits ≠ [])
      (decimal : digits.all Char.isDigit = true) (reads : Nat.ofDigitChars 10 digits 0 = value)
      (small : value < Nat.pow 2 32) : SpellsNumber (before ++ (solid ++ after)) value

inductive Spells (declared name : String) : List Nat → Prop
  | bare (named : SpellsName declared.toList name) : Spells declared name []
  | modified {front back : List Char} {pieces : List (List Char)} {modifiers : List Nat}
      (parts : declared.toList = front ++ '(' :: ([','].intercalate pieces ++ ')' :: back))
      (named : SpellsName (front ++ back) name) (nonempty : pieces ≠ [])
      (numbers : List.Forall₂ SpellsNumber pieces modifiers) : Spells declared name modifiers

/-! ## Numbers -/

theorem number?_of_digits {solid digits : List Char}
    (unsigned : solid = digits ∨ solid = '+' :: digits) (nonempty : digits ≠ [])
    (decimal : digits.all Char.isDigit = true)
    (small : Nat.ofDigitChars 10 digits 0 < Nat.pow 2 32) :
    number? solid = some (Nat.ofDigitChars 10 digits 0) := by
  have value : digits.foldl (fun n d => n * 10 + (d.toNat - '0'.toNat)) 0 =
      Nat.ofDigitChars 10 digits 0 := by
    simp only [Nat.ofDigitChars, Nat.mul_comm]
  have filled : digits.isEmpty = false := List.isEmpty_eq_false_iff.mpr nonempty
  unfold number?
  rcases unsigned with rfl | rfl
  · split
    · cases (List.all_eq_true.mp decimal) '+' List.mem_cons_self
    · simp only [value, filled, decimal]
      exact if_pos small
  · simp only [value, filled, decimal]
    exact if_pos small

namespace SpellsNumber

variable {piece : List Char} {value : Nat}

theorem number?_trim (spells : SpellsNumber piece value) :
    number? (Text.trim piece) = some value := by
  cases spells with
  | @of before digits solid after _ leading trailing unsigned nonempty decimal reads small =>
    have solidDigits : ∀ char ∈ digits, Text.isBlank char = false := fun char member =>
      Text.not_isBlank_of_isDigit (List.all_eq_true.mp decimal char member)
    have trimmed : Text.trim (before ++ (solid ++ after)) = solid := by
      rcases unsigned with rfl | rfl
      · exact Text.trim_between leading trailing nonempty solidDigits
      · apply Text.trim_between leading trailing (List.cons_ne_nil _ _)
        rw [List.forall_mem_cons]
        exact ⟨by decide, solidDigits⟩
    subst reads
    rw [trimmed, number?_of_digits unsigned nonempty decimal small]

theorem not_mem (spells : SpellsNumber piece value) {other : Char}
    (solid : Text.isBlank other = false) (letter : other.isDigit = false) (unsigned : other ≠ '+') :
    other ∉ piece := by
  cases spells with
  | @of before digits whole after _ leading trailing sign nonempty decimal =>
    have outside (blanks : List Char) (blank : blanks.all Text.isBlank = true) :
        other ∉ blanks := by
      intro member
      rw [List.all_eq_true.mp blank other member] at solid
      cases solid
    have apart : other ∉ digits := by
      intro member
      rw [List.all_eq_true.mp decimal other member] at letter
      cases letter
    have inside : other ∉ whole := by
      rcases sign with rfl | rfl
      · exact apart
      · exact List.not_mem_cons_of_ne_of_not_mem unsigned apart
    rw [List.mem_append, List.mem_append, not_or, not_or]
    exact ⟨outside before leading, inside, outside after trailing⟩

end SpellsNumber

theorem filterMap_number? {pieces : List (List Char)} {modifiers : List Nat}
    (numbers : List.Forall₂ SpellsNumber pieces modifiers) :
    pieces.filterMap (fun piece => number? (Text.trim piece)) = modifiers := by
  induction numbers with
  | nil => rfl
  | cons head _ induction =>
    rw [← induction]
    exact List.filterMap_cons_some head.number?_trim

theorem not_mem_intercalate {pieces : List (List Char)} {modifiers : List Nat} {other : Char}
    (numbers : List.Forall₂ SpellsNumber pieces modifiers) (solid : Text.isBlank other = false)
    (letter : other.isDigit = false) (unsigned : other ≠ '+') (apart : other ≠ ',') :
    other ∉ [','].intercalate pieces := by
  induction numbers with
  | nil => exact List.not_mem_nil
  | @cons piece value pieces modifiers head tail induction =>
    have first := head.not_mem solid letter unsigned
    cases pieces with
    | nil =>
      rw [List.intercalate_singleton]
      exact first
    | cons next others =>
      rw [List.intercalate_cons_cons, List.mem_append, List.mem_append, not_or, not_or]
      exact ⟨⟨first, mt List.mem_singleton.mp apart⟩, induction⟩

/-! ## Names -/

theorem outsideBrackets_plain {text : List Char} (plain : text.any isBracket = false)
    (rest : List Char) :
    outsideBrackets 0 (text ++ rest) = Text.lower text ++ outsideBrackets 0 rest := by
  induction text with
  | nil => rfl
  | cons char text induction =>
    rw [List.any_cons, Bool.or_eq_false_iff] at plain
    have here := plain.1
    simp only [isBracket, Bool.or_eq_false_iff, beq_eq_false_iff_ne] at here
    simp only [List.cons_append, outsideBrackets, here, or_false, if_false, if_true,
      induction plain.2, Text.lower, List.map_cons]

theorem outsideBrackets_inside {text : List Char} {depth : Nat}
    (plain : text.any isBracket = false) (rest : List Char) :
    outsideBrackets (depth + 1) (text ++ rest) = outsideBrackets (depth + 1) rest := by
  induction text with
  | nil => rfl
  | cons char text induction =>
    rw [List.any_cons, Bool.or_eq_false_iff] at plain
    have here := plain.1
    simp only [isBracket, Bool.or_eq_false_iff, beq_eq_false_iff_ne] at here
    simp [List.cons_append, outsideBrackets, here, induction plain.2]

/-! ## Declared types -/

namespace Spells

variable {declared name : String} {modifiers : List Nat}

theorem plain_intercalate {pieces : List (List Char)}
    (numbers : List.Forall₂ SpellsNumber pieces modifiers) :
    ([','].intercalate pieces).any isBracket = false := by
  rw [List.any_eq_false]
  intro char member bracket
  simp only [isBracket, Bool.or_eq_true, beq_iff_eq] at bracket
  rcases bracket with ((rfl | rfl) | rfl) | rfl <;>
    exact not_mem_intercalate numbers (by decide) (by decide) (by decide) (by decide) member

theorem words_outsideBrackets (spells : Spells declared name modifiers) :
    Text.words (outsideBrackets 0 declared.toList) = Text.words (Text.lower name.toList) := by
  cases spells with
  | bare named =>
    have outside := outsideBrackets_plain named.plain []
    rw [List.append_nil] at outside
    rw [outside, ← named.words]
    exact congrArg Text.words (List.append_nil _)
  | @modified front back pieces _ parts named _ numbers =>
    have plain := named.plain
    rw [List.any_append, Bool.or_eq_false_iff] at plain
    have opened : outsideBrackets 0 ('(' :: ([','].intercalate pieces ++ ')' :: back)) =
        outsideBrackets 1 (')' :: back) :=
      outsideBrackets_inside (plain_intercalate numbers) _
    have closed : outsideBrackets 1 (')' :: back) = outsideBrackets 0 back := rfl
    have behind := outsideBrackets_plain plain.2 []
    rw [List.append_nil] at behind
    rw [parts, outsideBrackets_plain plain.1, opened, closed, behind, ← named.words]
    simp [Text.lower, outsideBrackets]

theorem normalized_eq (spells : Spells declared name modifiers)
    (plain : name.toList.any isBracket = false) :
    normalized declared = normalized name := by
  have named : Spells name name [] := .bare ⟨plain, rfl⟩
  unfold normalized base
  rw [spells.words_outsideBrackets, named.words_outsideBrackets]

theorem modifiers_eq (spells : Spells declared name modifiers) :
    DeclaredType.modifiers declared = modifiers := by
  have unopened {text : List Char} (plain : text.any isBracket = false) : '(' ∉ text := by
    intro member
    exact List.any_eq_false.mp plain '(' member rfl
  cases spells with
  | bare named =>
    have none : modifierText? declared = none := by
      rw [modifierText?, Text.splitFirst_eq_none (unopened named.plain)]
    rw [DeclaredType.modifiers, none]
  | @modified front back pieces _ parts named nonempty numbers =>
    have plain := named.plain
    rw [List.any_append, Bool.or_eq_false_iff] at plain
    have unclosed : ')' ∉ [','].intercalate pieces :=
      not_mem_intercalate numbers (by decide) (by decide) (by decide) (by decide)
    have inside : modifierText? declared = some ([','].intercalate pieces) := by
      rw [modifierText?, parts, Text.splitFirst_of_not_mem (unopened plain.1)]
      simp only
      rw [Text.splitFirst_of_not_mem unclosed]
      rfl
    have apart : ∀ piece ∈ pieces, ',' ∉ piece := by
      intro piece member
      obtain ⟨value, _, number⟩ := exists_of_forall₂ numbers.flip member
      exact number.not_mem (by decide) (by decide) (by decide)
    rw [DeclaredType.modifiers, inside]
    simp only
    rw [Text.pieces_intercalate nonempty apart]
    exact filterMap_number? numbers

end Spells

end SchemaDdl.DeclaredType
