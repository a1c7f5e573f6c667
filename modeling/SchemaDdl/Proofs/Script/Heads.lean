import SchemaDdl.Proofs.Script.Definitions
import SchemaDdl.Proofs.Script.Rewording

/-!
# Heads of definitions

Within the words that a definition begins with, no other one begins. Only the first of these words
begins with a letter C, and only blanks, with line breaks among them, stand in front of the others.
A search for heads that goes on behind each of them therefore misses none.
-/

namespace SchemaDdl.Script

open Text

variable {previous : Option Char} {text rest : List Char}

/-! ## Texts without heads -/

theorem isHeadless_append (previous : Option Char) (front back rest : List Char) :
    isHeadless previous (front ++ back) rest =
      (isHeadless previous front (back ++ rest)
        && isHeadless (lastAfter previous front) back rest) := by
  induction front generalizing previous with
  | nil => rw [List.nil_append, isHeadless, Bool.true_and]; rfl
  | cons char front induction =>
      rw [List.cons_append, isHeadless, isHeadless, induction, lastAfter_cons, Bool.and_assoc,
        List.cons_append, List.cons_append, List.append_assoc]

theorem isHeadless_of_inside {char : Char} (inside : char ≠ '\n') (single : '\n' ∉ text)
    (rest : List Char) : isHeadless (some char) text rest = true := by
  induction text generalizing char with
  | nil => rfl
  | cons next text induction =>
      rw [List.mem_cons, not_or] at single
      have within : lineBegins (some char) = false := beq_eq_false_iff_ne.mpr inside
      rw [isHeadless, within, Bool.false_and, Bool.not_false, Bool.true_and]
      exact induction (Ne.symm single.1) single.2

/-! ## Words of heads -/

def beginsHead (text : List Char) : Bool :=
  text.head?.any (fold · == 'c')

theorem exists_of_afterHead? (found : afterHead? definitionHeads text = some rest) :
    ∃ letters after words, text.dropWhile isIndent = letters ++ after ∧
      letters.map fold = "create".toList ∧ isWorded words = true ∧ words ≠ [] ∧
      (words.all fun word => !beginsHead word.toList) = true ∧
      (afterBlanks? after).bind (afterPhrase? words) = some rest := by
  have each : ∀ phrase ∈ definitionHeads, ∃ next words, phrase = "CREATE" :: next :: words ∧
      isWorded (next :: words) = true ∧
      ((next :: words).all fun word => !beginsHead word.toList) = true := by
    intro phrase among
    simp only [definitionHeads, List.mem_cons, List.not_mem_nil, or_false] at among
    rcases among with rfl | rfl | rfl | rfl <;>
      exact ⟨_, _, rfl, by decide +kernel, by decide +kernel⟩
  rcases List.exists_of_findSome?_eq_some found with ⟨phrase, among, found⟩
  have found := (Option.filter_eq_some_iff.mp found).1
  rcases each phrase among with ⟨next, words, rfl, worded, others⟩
  rw [afterPhrase?_cons_cons] at found
  rcases Option.bind_eq_some_iff.mp found with ⟨between, blanks, phrase⟩
  rcases Option.bind_eq_some_iff.mp blanks with ⟨after, create, blanks⟩
  rcases exists_of_afterLetters? create with ⟨letters, whole, same, _⟩
  refine ⟨letters, after, next :: words, whole, ?_, worded, List.cons_ne_nil _ _, others, ?_⟩
  · rw [same]
    decide
  · rw [blanks, Option.bind_some, phrase]

theorem afterHead?_eq_none (other : beginsHead (text.dropWhile isIndent) = false) :
    afterHead? definitionHeads text = none := by
  rw [Option.eq_none_iff_forall_ne_some]
  intro rest found
  rcases exists_of_afterHead? found with ⟨letters, after, _, whole, same, _⟩
  cases letters with
  | nil => cases same
  | cons char letters =>
      have letter : fold char = 'c' := (List.cons.inj same).1
      rw [whole, List.cons_append, beginsHead, List.head?_cons, Option.any_some, letter] at other
      cases other

theorem isHeadless_cons {char : Char} {text rest : List Char}
    (other : beginsHead ((char :: text ++ rest).dropWhile isIndent) = false)
    (previous : Option Char) :
    isHeadless previous (char :: text) rest = isHeadless (some char) text rest := by
  rw [isHeadless, afterHead?_eq_none other, Option.isSome_none, Bool.and_false, Bool.not_false,
    Bool.true_and]

theorem beginsHead_append {blanks : List Char} (blank : blanks.all isBlank = true)
    (other : beginsHead (rest.dropWhile isIndent) = false) :
    beginsHead ((blanks ++ rest).dropWhile isIndent) = false := by
  induction blanks with
  | nil => exact other
  | cons char blanks induction =>
      rw [List.all_cons, Bool.and_eq_true] at blank
      rw [List.cons_append, List.dropWhile_cons]
      split
      · exact induction blank.2
      · have letter : (fold char != 'c') = true :=
          of_isBlank (fold · != 'c') (by decide +kernel) blank.1
        exact beq_eq_false_iff_ne.mpr (bne_iff_ne.mp letter)

theorem isHeadless_blanks {blanks : List Char} (blank : blanks.all isBlank = true)
    (other : beginsHead (rest.dropWhile isIndent) = false) (previous : Option Char) :
    isHeadless previous blanks rest = true := by
  induction blanks generalizing previous with
  | nil => rfl
  | cons char blanks induction =>
      have here := beginsHead_append blank other
      rw [List.all_cons, Bool.and_eq_true] at blank
      rw [isHeadless_cons here]
      exact induction blank.2 (some char)

theorem exists_blanks_of_afterBlanks? (found : afterBlanks? text = some rest) :
    ∃ blanks, text = blanks ++ rest ∧ blanks.all isBlank = true := by
  cases text with
  | nil => cases found
  | cons char text =>
      rw [afterBlanks?] at found
      rcases Option.ite_none_right_eq_some.mp found with ⟨blank, found⟩
      cases found
      refine ⟨char :: text.takeWhile isBlank, ?_, ?_⟩
      · rw [List.cons_append, List.takeWhile_append_dropWhile]
      · rw [List.all_cons, blank, List.all_takeWhile]
        rfl

theorem worded_of_fold {letters word : List Char} (same : letters.map fold = word.map fold)
    (worded : word.all isWord = true) :
    letters.all isWord = true ∧ beginsHead letters = beginsHead word := by
  constructor
  · have each : (letters.map fold).all isWord = (word.map fold).all isWord := by rw [same]
    have through : isWord ∘ fold = isWord := funext isWord_fold
    rw [List.all_map, List.all_map, through, worded] at each
    exact each
  · have heads := congrArg List.head? same
    rw [List.head?_map, List.head?_map] at heads
    have whole : ∀ text, beginsHead text = (text.head?.map fold).any (· == 'c') := by
      intro text
      cases text <;> rfl
    rw [whole, whole, heads]

theorem not_newline_of_worded (worded : text.all isWord = true) : '\n' ∉ text := by
  intro among
  have word := List.all_eq_true.mp worded _ among
  rw [show isWord '\n' = false by decide +kernel] at word
  cases word

theorem not_isIndent_of_isWord {char : Char} (word : isWord char = true) :
    ¬isIndent char = true := by
  intro indent
  rcases Bool.or_eq_true_iff.mp indent with space | tab
  · rw [eq_of_beq space, show isWord ' ' = false by decide +kernel] at word
    cases word
  · rw [eq_of_beq tab, show isWord '\t' = false by decide +kernel] at word
    cases word

theorem exists_headless_of_words {words : Phrase} (worded : isWorded words = true)
    (nonempty : words ≠ []) (others : (words.all fun word => !beginsHead word.toList) = true)
    (found : (afterBlanks? text).bind (afterPhrase? words) = some rest) :
    ∃ piece, text = piece ++ rest ∧ ∀ previous, isHeadless previous piece rest = true := by
  induction words generalizing text with
  | nil => exact absurd rfl nonempty
  | cons word words induction =>
      unfold isWorded at worded induction
      rw [List.all_cons, Bool.and_eq_true] at worded others
      rw [Bool.and_eq_true, Bool.not_eq_true'] at worded
      rcases Option.bind_eq_some_iff.mp found with ⟨between, gap, phrase⟩
      rcases exists_blanks_of_afterBlanks? gap with ⟨blanks, rfl, blank⟩
      have read : ∃ after more, afterLetters? word.toList between = some after ∧
          after = more ++ rest ∧ ∀ previous, isHeadless previous more rest = true := by
        cases words with
        | nil => exact ⟨rest, [], phrase, rfl, fun _ => rfl⟩
        | cons next words =>
            rcases Option.bind_eq_some_iff.mp phrase with ⟨inner, first, phrase⟩
            rcases Option.bind_eq_some_iff.mp first with ⟨after, letters, first⟩
            have later : (afterBlanks? after).bind (afterPhrase? (next :: words)) = some rest := by
              rw [first, Option.bind_some, phrase]
            rcases induction worded.2 (List.cons_ne_nil _ _) others.2 later with
              ⟨more, whole, headless⟩
            exact ⟨after, more, letters, whole, headless⟩
      rcases read with ⟨after, more, letters, rfl, headless⟩
      rcases exists_of_afterLetters? letters with ⟨piece, rfl, same, _⟩
      have solid := worded_of_fold same worded.1.2
      rw [Bool.not_eq_true'] at others
      refine ⟨blanks ++ (piece ++ more), by simp only [List.append_assoc], fun previous => ?_⟩
      cases piece with
      | nil =>
          rw [List.map_nil, eq_comm, List.map_eq_nil_iff] at same
          rw [same] at worded
          cases worded.1.1
      | cons char piece =>
          have letter : isWord char = true := (Bool.and_eq_true_iff.mp solid.1).1
          have single := not_newline_of_worded solid.1
          rw [List.mem_cons, not_or] at single
          have here :
              beginsHead ((char :: piece ++ (more ++ rest)).dropWhile isIndent) = false := by
            rw [List.cons_append, List.dropWhile_cons_of_neg (not_isIndent_of_isWord letter)]
            exact solid.2.trans others.1
          rw [isHeadless_append, isHeadless_append, headless,
            isHeadless_blanks blank (by rw [List.append_assoc]; exact here), isHeadless_cons here,
            isHeadless_of_inside (Ne.symm single.1) single.2]
          rfl

theorem exists_headless_of_afterHead? {char : Char}
    (found : afterHead? definitionHeads (char :: text) = some rest) :
    ∃ piece, text = piece ++ rest ∧ isHeadless (some char) piece rest = true := by
  rcases exists_of_afterHead? found with
    ⟨letters, after, words, whole, create, worded, nonempty, others, later⟩
  rcases exists_headless_of_words worded nonempty others later with ⟨more, rfl, headless⟩
  have same : letters.map fold = "create".toList.map fold := create
  have solid := worded_of_fold same (by decide +kernel)
  have first : letters ≠ [] := by
    rintro rfl
    cases create
  have split := List.takeWhile_append_dropWhile (p := isIndent) (l := char :: text)
  rw [whole, ← List.append_assoc, ← List.append_assoc] at split
  have single : '\n' ∉ (char :: text).takeWhile isIndent ++ letters := by
    rw [List.mem_append, not_or]
    refine ⟨fun among => ?_, not_newline_of_worded solid.1⟩
    have indent := List.all_eq_true.mp List.all_takeWhile _ among
    cases indent
  cases line : (char :: text).takeWhile isIndent ++ letters with
  | nil => exact absurd (List.append_eq_nil_iff.mp line).2 first
  | cons start others =>
      rw [line] at split single
      rw [List.mem_cons, not_or] at single
      cases split
      refine ⟨others ++ more, rfl, ?_⟩
      rw [isHeadless_append, headless, isHeadless_of_inside (Ne.symm single.1) single.2]
      rfl

end SchemaDdl.Script
