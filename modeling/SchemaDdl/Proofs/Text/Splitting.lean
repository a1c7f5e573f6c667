import Mathlib.Data.List.DropRight
import SchemaDdl.Text.Segment

/-!
# Splitting and trimming

What is put together with separators comes apart at them again, and what is between blanks is found
by trimming.
-/

namespace SchemaDdl.Text

variable {separator : Char} {text inside before after rest : List Char}

/-! ## The characters of a text -/

/-- The characters of a text that is written in two parts. They are found by this equation where an
evaluation is to read them, for taking a text apart is slow there. -/
theorem toList_ofList_append {first second : List Char} :
    (String.ofList first ++ String.ofList second).toList = first ++ second := by
  rw [String.toList_append, String.toList_ofList, String.toList_ofList]

/-! ## Occurrences of a text -/

theorem occursIn_iff {needle text : List Char} :
    occursIn needle text = true ↔ needle <:+: text := by
  induction text with
  | nil => rw [occursIn, List.isEmpty_iff, List.infix_nil]
  | cons char text induction =>
      rw [occursIn, Bool.or_eq_true, induction, List.isPrefixOf_iff_prefix, List.infix_cons_iff]

/-! ## The first occurrence -/

theorem eq_of_splitFirst (found : splitFirst separator text = some (inside, rest)) :
    text = inside ++ separator :: rest := by
  induction text generalizing inside with
  | nil => cases found
  | cons char text induction =>
      rw [splitFirst] at found
      split at found
      · rename_i same
        cases found
        rw [same, List.nil_append]
      · rcases Option.map_eq_some_iff.mp found with ⟨⟨before, after⟩, split, equal⟩
        cases equal
        rw [induction split, List.cons_append]

theorem splitFirst_of_not_mem (absent : separator ∉ text) :
    splitFirst separator (text ++ separator :: rest) = some (text, rest) := by
  induction text with
  | nil => exact if_pos rfl
  | cons char text induction =>
      rw [List.mem_cons, not_or] at absent
      rw [List.cons_append, splitFirst, if_neg (Ne.symm absent.1), induction absent.2]
      rfl

theorem not_mem_of_splitFirst (found : splitFirst separator text = some (inside, rest)) :
    separator ∉ inside := by
  induction text generalizing inside with
  | nil => cases found
  | cons char text induction =>
      rw [splitFirst] at found
      split at found
      · cases found
        exact List.not_mem_nil
      · rename_i other
        rcases Option.map_eq_some_iff.mp found with ⟨⟨before, after⟩, split, equal⟩
        cases equal
        rw [List.mem_cons, not_or]
        exact ⟨Ne.symm other, induction split⟩

theorem splitFirst_eq_none (absent : separator ∉ text) : splitFirst separator text = none := by
  cases found : splitFirst separator text with
  | none => rfl
  | some parts =>
    apply absurd _ absent
    rw [eq_of_splitFirst found]
    simp

/-! ## All occurrences -/

theorem pieces_eq_splitOnP (separates : Char → Bool) (text : List Char) :
    pieces separates text = text.splitOnP separates := by
  induction text with
  | nil => rw [pieces, List.splitOnP_nil]
  | cons char rest induction =>
    rw [pieces, List.splitOnP_cons_eq_if_modifyHead, induction]
    cases parts : rest.splitOnP separates with
    | nil => exact absurd parts (List.splitOnP_ne_nil separates rest)
    | cons first others => rfl

theorem pieces_intercalate {parts : List (List Char)} (nonempty : parts ≠ [])
    (absent : ∀ part ∈ parts, separator ∉ part) :
    pieces (· == separator) ([separator].intercalate parts) = parts := by
  rw [pieces_eq_splitOnP]
  exact List.splitOn_intercalate separator absent nonempty

/-! ## Runs of characters -/

section

variable {test : Char → Bool} {front : List Char}

theorem takeWhile_append_of_stop (each : front.all test = true)
    (stops : ∀ next ∈ rest.head?, test next = false) : (front ++ rest).takeWhile test = front := by
  rw [List.takeWhile_append_of_pos (List.all_eq_true.mp each)]
  cases rest with
  | nil => exact List.append_nil front
  | cons next rest =>
      rw [List.takeWhile_cons_of_neg (Bool.eq_false_iff.mp (stops next rfl)), List.append_nil]

theorem dropWhile_append_of_stop (each : front.all test = true)
    (stops : ∀ next ∈ rest.head?, test next = false) : (front ++ rest).dropWhile test = rest := by
  rw [List.dropWhile_append_of_pos (List.all_eq_true.mp each)]
  cases rest with
  | nil => rfl
  | cons next rest => exact List.dropWhile_cons_of_neg (Bool.eq_false_iff.mp (stops next rfl))

end

/-! ## Blanks -/

theorem not_isBlank_of_isDigit {char : Char} (digit : char.isDigit = true) :
    isBlank char = false := by
  have bounds : 48 ≤ char.toNat ∧ char.toNat ≤ 57 := by
    simpa [Char.isDigit, UInt32.le_iff_toNat_le] using digit
  simp only [isBlank, Bool.or_eq_false_iff, Bool.and_eq_false_iff, decide_eq_false_iff_not,
    beq_eq_false_iff_ne]
  omega

def blankCodes : List Nat :=
  [9, 10, 11, 12, 13, 0x20, 0x85, 0xA0, 0x1680, 0x2000, 0x2001, 0x2002, 0x2003, 0x2004, 0x2005,
    0x2006, 0x2007, 0x2008, 0x2009, 0x200A, 0x2028, 0x2029, 0x202F, 0x205F, 0x3000]

theorem toNat_mem_blankCodes {char : Char} (blank : isBlank char = true) :
    char.toNat ∈ blankCodes := by
  simp only [isBlank, Bool.or_eq_true, Bool.and_eq_true, decide_eq_true_eq, beq_iff_eq] at blank
  simp only [blankCodes, List.mem_cons, List.not_mem_nil, or_false]
  grind

theorem of_isBlank (test : Char → Bool) {char : Char}
    (each : ∀ code ∈ blankCodes, test (Char.ofNat code) = true) (blank : isBlank char = true) :
    test char = true := by
  rw [← Char.ofNat_toNat char]
  exact each _ (toNat_mem_blankCodes blank)

/-! ## Trimming -/

theorem trimEnd_append {blanks : List Char} (blank : blanks.all isBlank = true) :
    trimEnd (text ++ blanks) = trimEnd text := by
  unfold trimEnd dropTail
  rw [List.reverse_append, List.dropWhile_append_of_pos]
  intro char among
  exact List.all_eq_true.mp blank char (List.mem_reverse.mp among)

theorem dropWhile_isBlank (solid : ∀ char ∈ text, isBlank char = false) :
    text.dropWhile isBlank = text := by
  cases text with
  | nil => rfl
  | cons char rest => exact List.dropWhile_cons_of_neg (by simp [solid char List.mem_cons_self])

theorem dropTail_eq_rdropWhile (test : Char → Bool) (text : List Char) :
    dropTail test text = text.rdropWhile test :=
  rfl

theorem exists_trim (text : List Char) :
    ∃ before after, text = before ++ (trim text ++ after) ∧
      (∀ char ∈ before, isBlank char = true) ∧ ∀ char ∈ after, isBlank char = true := by
  refine ⟨text.takeWhile isBlank, (trimStart text).rtakeWhile isBlank, ?_, ?_, ?_⟩
  · rw [trim, trimEnd, dropTail_eq_rdropWhile, List.rdropWhile_append_rtakeWhile, trimStart,
      List.takeWhile_append_dropWhile]
  · exact fun char among => List.mem_takeWhile_imp among
  · exact fun char among => List.mem_rtakeWhile_imp among

theorem trim_of_solid_ends (first : ∀ char ∈ text.head?, isBlank char = false)
    (last : ∀ char ∈ text.getLast?, isBlank char = false) : trim text = text := by
  have start : trimStart text = text := by
    cases text with
    | nil => rfl
    | cons char rest => exact List.dropWhile_cons_of_neg (by simp [first char rfl])
  rw [trim, start, trimEnd, dropTail_eq_rdropWhile, List.rdropWhile_eq_self_iff]
  intro nonempty
  rw [last _ (List.getLast?_eq_some_getLast nonempty)]
  exact Bool.false_ne_true

theorem head?_trim : ∀ char ∈ (trim text).head?, isBlank char = false := by
  intro char first
  have whole : trim text <+: trimStart text := List.rdropWhile_prefix isBlank _
  have same : (trimStart text).head? = some char := by
    rcases List.head?_eq_some_iff.mp first with ⟨rest, equal⟩
    rw [equal] at whole
    rcases whole with ⟨more, equal⟩
    rw [← equal]
    rfl
  have solid := List.head?_dropWhile_not isBlank text
  rw [trimStart] at same
  rwa [same] at solid

theorem getLast?_trim : ∀ char ∈ (trim text).getLast?, isBlank char = false := by
  intro char last
  rcases List.getLast?_eq_some_iff.mp last with ⟨rest, equal⟩
  have nonempty : trim text ≠ [] := by simp [equal]
  have solid : ¬isBlank ((trim text).getLast nonempty) = true :=
    List.rdropWhile_last_not isBlank (trimStart text) nonempty
  rw [List.getLast?_eq_some_getLast nonempty, Option.mem_some] at last
  rw [last] at solid
  exact Bool.not_eq_true _ ▸ solid

theorem trim_trim : trim (trim text) = trim text :=
  trim_of_solid_ends head?_trim getLast?_trim

theorem trim_between (leading : before.all isBlank = true) (trailing : after.all isBlank = true)
    (nonempty : text ≠ []) (solid : ∀ char ∈ text, isBlank char = false) :
    trim (before ++ (text ++ after)) = text := by
  have start : trimStart (before ++ (text ++ after)) = text ++ after := by
    obtain ⟨char, rest, rfl⟩ := List.exists_cons_of_ne_nil nonempty
    rw [trimStart, List.dropWhile_append_of_pos (List.all_eq_true.mp leading), List.cons_append]
    exact List.dropWhile_cons_of_neg (by simp [solid char List.mem_cons_self])
  have ending : trimEnd text = text := by
    have reversed : text.reverse.dropWhile isBlank = text.reverse :=
      dropWhile_isBlank fun char member => solid char (List.mem_reverse.mp member)
    rw [trimEnd, dropTail, reversed, List.reverse_reverse]
  rw [trim, start, trimEnd_append trailing, ending]

end SchemaDdl.Text
