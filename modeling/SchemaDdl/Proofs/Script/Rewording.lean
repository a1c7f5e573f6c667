import Mathlib.Data.List.Forall2
import SchemaDdl.Proofs.Script.Statements
import SchemaDdl.Proofs.Text.Splitting

/-!
# Reworded statements

The rules that remove nothing replace a phrase or a call by another wording. Both are made of words,
blanks and parentheses, which open no quotes and end no statement, so that such a replacement in a
script is one in the statements of the script.
-/

namespace SchemaDdl.Text

def Passes (test : Char → Bool) (text rest : List Char) : Prop :=
  ∃ passed, text = passed ++ rest ∧ passed.all test = true

variable {test : Char → Bool} {text middle rest : List Char}

theorem all_of_implies {other : Char → Bool}
    (implies : ∀ char, test char = true → other char = true) (all : text.all test = true) :
    text.all other = true := by
  rw [List.all_eq_true] at all ⊢
  exact fun char among => implies char (all char among)

theorem Passes.trans (first : Passes test text middle) (second : Passes test middle rest) :
    Passes test text rest := by
  rcases first with ⟨front, rfl, frontPasses⟩
  rcases second with ⟨back, rfl, backPasses⟩
  refine ⟨front ++ back, (List.append_assoc ..).symm, ?_⟩
  rw [List.all_append, frontPasses, backPasses]
  rfl

theorem Passes.mono {other : Char → Bool} (passes : Passes test text rest)
    (implies : ∀ char, test char = true → other char = true) : Passes other text rest := by
  rcases passes with ⟨passed, whole, all⟩
  exact ⟨passed, whole, all_of_implies implies all⟩

theorem passes_dropWhile (test : Char → Bool) (text : List Char) :
    Passes test text (text.dropWhile test) :=
  ⟨text.takeWhile test, List.takeWhile_append_dropWhile.symm, List.all_takeWhile⟩

theorem exists_word_of_afterLetters? {letters : List Char} (worded : letters.all isWord = true)
    (found : afterLetters? letters text = some rest) :
    ∃ word : List Char, text = word ++ rest ∧ word.all isWord = true ∧
      word.length = letters.length := by
  rcases Script.exists_of_afterLetters? found with ⟨word, whole, same, _⟩
  refine ⟨word, whole, ?_, ?_⟩
  · have folded : (word.map fold).all isWord = (letters.map fold).all isWord := by rw [same]
    have words : isWord ∘ fold = isWord := funext isWord_fold
    rw [List.all_map, List.all_map, words, worded] at folded
    exact folded
  · have length := congrArg List.length same
    rw [List.length_map, List.length_map] at length
    exact length

theorem exists_blank_of_afterBlanks? (found : afterBlanks? text = some rest) :
    ∃ blank others, text = blank :: others ∧ isBlank blank = true ∧
      Passes isBlank others rest := by
  cases text with
  | nil => cases found
  | cons blank others =>
      rcases Option.ite_none_right_eq_some.mp found with ⟨first, found⟩
      cases found
      exact ⟨blank, others, rfl, first, passes_dropWhile isBlank others⟩

end SchemaDdl.Text

namespace SchemaDdl.Script

open Text

/-! ## Plain wordings -/

def isInert (char : Char) : Bool :=
  isWord char || isBlank char || char == '(' || char == ')'

def isWording (text : List Char) : Bool :=
  text.head?.any isWord && text.any (!isTagPart ·) && text.all isInert

def Pattern.isWording : Pattern → Bool
  | .phrase words => Text.isWorded words && decide (1 < words.length)
  | .call function => !function.toList.isEmpty && function.toList.all isWord
  | .statement .. | .sentence _ | .definition _ => false

theorem removes_or_rewords {dialect : Dialect} {rule : Rule} (among : rule ∈ rules dialect) :
    rule.pattern.isAnchored = true ∧ rule.replacement.toList = [] ∨
      rule.pattern.isWording = true ∧ isWording rule.replacement.toList = true := by
  have each : ∀ dialect : Dialect, (rules dialect).all (fun rule =>
      rule.pattern.isAnchored && rule.replacement.toList.isEmpty ||
        rule.pattern.isWording && isWording rule.replacement.toList) = true := by
    intro dialect
    cases dialect <;> decide +kernel
  have this := List.all_eq_true.mp (each dialect) rule among
  simpa using this

variable {text piece rest : List Char} {char : Char}

theorem isInert_of_isWord (word : isWord char = true) : isInert char = true := by
  unfold isInert
  rw [word]
  rfl

theorem isInert_of_isBlank (blank : isBlank char = true) : isInert char = true := by
  unfold isInert
  rw [blank, Bool.or_true]
  rfl

theorem not_isTagPart_of_isBlank (blank : isBlank char = true) : isTagPart char = false := by
  have outside : (!isTagPart char) = true :=
    of_isBlank (!isTagPart ·) (by decide +kernel) blank
  simpa using outside

theorem blankCodes_outside_wordRanges : wordRanges.all (fun range => Nat.blt 0x3000 range.1 ||
    blankCodes.all fun code => Nat.blt code range.1 || Nat.blt range.2 code) = true := by
  decide +kernel

theorem not_isBlank_of_isWord (word : isWord char = true) : isBlank char = false := by
  cases blank : isBlank char with
  | false => rfl
  | true =>
      unfold isWord at word
      split at word
      · have outside : (!(char.isAlphanum || char == '_')) = true :=
          of_isBlank (fun char => !(char.isAlphanum || char == '_')) (by decide) blank
        rw [word] at outside
        cases outside
      · rcases List.any_eq_true.mp word with ⟨range, among, inside⟩
        have code := toNat_mem_blankCodes blank
        have last : ∀ code ∈ blankCodes, code ≤ 0x3000 := by decide
        have outside := List.all_eq_true.mp blankCodes_outside_wordRanges range among
        simp only [Bool.or_eq_true, Nat.blt_eq, List.all_eq_true] at outside
        simp only [Bool.and_eq_true, decide_eq_true_eq] at inside
        have bound := last _ code
        rcases outside with behind | outside
        · omega
        · have apart := outside _ code
          omega

theorem passes_afterPhrase? {words : Phrase} (worded : Text.isWorded words = true)
    (found : afterPhrase? words text = some rest) : Passes isInert text rest := by
  induction words generalizing text with
  | nil =>
      cases found
      exact ⟨[], rfl, rfl⟩
  | cons word words induction =>
      unfold Text.isWorded at worded induction
      rw [List.all_cons, Bool.and_eq_true, Bool.and_eq_true] at worded
      rcases worded with ⟨⟨_, letters⟩, worded⟩
      have inert : ∀ {text rest : List Char}, afterLetters? word.toList text = some rest →
          Passes isInert text rest := by
        intro text rest found
        rcases exists_word_of_afterLetters? letters found with ⟨word, whole, all, _⟩
        exact Passes.mono ⟨word, whole, all⟩ fun _ => isInert_of_isWord
      cases words with
      | nil => exact inert found
      | cons next words =>
          rcases Option.bind_eq_some_iff.mp found with ⟨others, blanks, found⟩
          rcases Option.bind_eq_some_iff.mp blanks with ⟨between, first, blanks⟩
          rcases exists_blank_of_afterBlanks? blanks with ⟨blank, gap, rfl, solid, passes⟩
          have step : Passes isInert (blank :: gap) gap :=
            ⟨[blank], rfl, by simpa using isInert_of_isBlank solid⟩
          have rest := (passes.mono fun _ => isInert_of_isBlank).trans (induction worded found)
          exact (inert first).trans (step.trans rest)

theorem isWording_of_parts {word others : List Char} (some : word ≠ [])
    (words : word.all isWord = true) (inert : others.all isInert = true)
    (goesOn : others.any (!isTagPart ·) = true) : Script.isWording (word ++ others) = true := by
  have wordInert : word.all isInert = true := all_of_implies (fun _ => isInert_of_isWord) words
  have begins : (word ++ others).head?.any isWord = true := by
    cases word with
    | nil => exact absurd rfl some
    | cons first word => exact List.all_eq_true.mp words first List.mem_cons_self
  unfold Script.isWording
  rw [begins, List.all_append, wordInert, inert, List.any_append, goesOn, Bool.or_true]
  rfl

theorem isWording_of_afterPhrase? {first second : String} {words : Phrase}
    (worded : Text.isWorded (first :: second :: words) = true)
    (found : afterPhrase? (first :: second :: words) (piece ++ rest) = some rest) :
    Script.isWording piece = true := by
  rcases Option.bind_eq_some_iff.mp found with ⟨others, blanks, found⟩
  rcases Option.bind_eq_some_iff.mp blanks with ⟨between, letters, blanks⟩
  unfold Text.isWorded at worded
  rw [List.all_cons, Bool.and_eq_true, Bool.and_eq_true, Bool.not_eq_true'] at worded
  rcases worded with ⟨⟨some, wordy⟩, worded⟩
  rcases exists_word_of_afterLetters? wordy letters with ⟨word, whole, all, length⟩
  rcases exists_blank_of_afterBlanks? blanks with ⟨blank, gap, rfl, solid, passes⟩
  rcases (passes.mono fun _ => isInert_of_isBlank).trans (passes_afterPhrase? worded found) with
    ⟨back, rfl, inert⟩
  rw [← List.cons_append, ← List.append_assoc] at whole
  rw [List.append_cancel_right whole]
  apply isWording_of_parts ?_ all
  · rw [List.all_cons, isInert_of_isBlank solid, inert]
    rfl
  · rw [List.any_cons, not_isTagPart_of_isBlank solid]
    rfl
  · rintro rfl
    rw [List.length_nil, eq_comm, List.length_eq_zero_iff] at length
    rw [length] at some
    cases some

theorem isWording_of_afterCall? {function : String} (some : function.toList ≠ [])
    (wordy : function.toList.all isWord = true)
    (found : afterCall? function (piece ++ rest) = .some rest) : Script.isWording piece = true := by
  unfold afterCall? at found
  split at found
  · rename_i arguments opened
    split at found
    · rename_i closed
      cases found
      rcases Option.map_eq_some_iff.mp opened with ⟨after, letters, opened⟩
      rcases exists_word_of_afterLetters? wordy letters with ⟨word, whole, all, length⟩
      have outer : Passes isBlank after ('(' :: arguments) := by
        rw [← opened]
        exact passes_dropWhile isBlank after
      have inner : Passes isBlank arguments (')' :: rest) := by
        rw [← closed]
        exact passes_dropWhile isBlank arguments
      rcases outer with ⟨gap, rfl, gapBlank⟩
      rcases inner with ⟨inside, rfl, insideBlank⟩
      have split : piece ++ rest = (word ++ (gap ++ '(' :: (inside ++ [')']))) ++ rest := by
        rw [whole]
        simp
      rw [List.append_cancel_right split]
      have gapInert := all_of_implies (fun _ => isInert_of_isBlank) gapBlank
      have insideInert := all_of_implies (fun _ => isInert_of_isBlank) insideBlank
      apply isWording_of_parts ?_ all
      · simp [gapInert, insideInert, isInert]
      · simp [isTagPart]
      · rintro rfl
        exact some (List.length_eq_zero_iff.mp length.symm)
    · cases found
  · cases found

theorem Pattern.isWording_of_after? {pattern : Pattern} (wording : pattern.isWording = true)
    {previous : Option Char} (found : pattern.after? previous (piece ++ rest) = some rest) :
    Script.isWording piece = true ∧ pattern.after? none piece = some [] := by
  cases pattern with
  | statement heads demand => cases wording
  | sentence phrases => cases wording
  | definition heads => cases wording
  | phrase words =>
      rcases Option.ite_none_right_eq_some.mp found with ⟨_, found⟩
      rcases Option.filter_eq_some_iff.mp found with ⟨found, _⟩
      rcases Bool.and_eq_true_iff.mp wording with ⟨worded, long⟩
      cases words with
      | nil => cases long
      | cons first words =>
          cases words with
          | nil => cases long
          | cons second words =>
              rcases exists_of_afterPhrase? worded (List.cons_ne_nil _ _) found with
                ⟨other, whole, _, again⟩
              cases List.append_cancel_right whole
              refine ⟨isWording_of_afterPhrase? worded found, ?_⟩
              have alone := again []
              rw [List.append_nil] at alone
              exact congrArg (Option.filter wordEnds) alone
  | call function =>
      rcases Option.ite_none_right_eq_some.mp found with ⟨_, found⟩
      rcases Bool.and_eq_true_iff.mp wording with ⟨some, wordy⟩
      rcases exists_of_afterCall? found with ⟨other, whole, _, again⟩
      cases List.append_cancel_right whole
      refine ⟨isWording_of_afterCall? (by simpa using some) wordy found, ?_⟩
      have alone := again []
      rw [List.append_nil] at alone
      exact alone

theorem isWording_of_found {pattern : Pattern} (wording : pattern.isWording = true)
    (found : pattern.after? none piece = some []) : isWording piece = true := by
  rw [← List.append_nil piece] at found
  exact (Pattern.isWording_of_after? wording found).1

theorem not_isAnchored_of_isWording {pattern : Pattern} (wording : pattern.isWording = true) :
    pattern.isAnchored = false := by
  cases pattern with
  | statement heads demand => cases wording
  | sentence phrases => cases wording
  | definition heads => cases wording
  | phrase words => rfl
  | call function => rfl

theorem isWording_of_replacement {dialect : Dialect} {rule : Rule} (among : rule ∈ rules dialect)
    (wording : rule.pattern.isWording = true) : isWording rule.replacement.toList = true := by
  rcases removes_or_rewords among with ⟨anchored, _⟩ | ⟨_, written⟩
  · rw [not_isAnchored_of_isWording wording] at anchored
    cases anchored
  · exact written

theorem inert_of_isWording (wording : isWording text = true) : text.all isInert = true :=
  (Bool.and_eq_true_iff.mp wording).2

/-! ## Reading wordings -/

variable {nests : Bool}

theorem ne_of_isInert {mark : Char} (inert : isInert char = true) (other : isInert mark = false) :
    mark ≠ char := by
  rintro rfl
  rw [inert] at other
  cases other

theorem openQuote?_of_isInert (inert : isInert char = true) (text : List Char) :
    openQuote? (char :: text) = none := by
  have quote : '\'' ≠ char := ne_of_isInert inert (by decide)
  have double : '"' ≠ char := ne_of_isInert inert (by decide)
  have dash : '-' ≠ char := ne_of_isInert inert (by decide)
  have slash : '/' ≠ char := ne_of_isInert inert (by decide)
  have dollar : '$' ≠ char := ne_of_isInert inert (by decide)
  unfold openQuote?
  rw [dollarTag?_of_ne (Ne.symm dollar)]
  simp [marks, after?, quote, double, dash, slash]

def plainly (text : List Char) : List Lexeme :=
  text.map .plain

theorem lexemes?_plainly (inert : text.all isInert = true) (rest : List Char) :
    lexemes? nests (text ++ rest) = (lexemes? nests rest).map (plainly text ++ ·) := by
  induction text with
  | nil =>
      rw [List.nil_append]
      cases lexemes? nests rest <;> rfl
  | cons char text induction =>
      rw [List.all_cons, Bool.and_eq_true] at inert
      rw [List.cons_append, lexemes?_plain (openQuote?_of_isInert inert.1 _), induction inert.2,
        Option.map_map]
      rfl

theorem splitOnP_plainly (inert : text.all isInert = true) {first rest : List Lexeme}
    {others : List (List Lexeme)} (split : rest.splitOnP Lexeme.isEnd = first :: others) :
    (plainly text ++ rest).splitOnP Lexeme.isEnd = (plainly text ++ first) :: others := by
  induction text with
  | nil => exact split
  | cons char text induction =>
      rw [List.all_cons, Bool.and_eq_true] at inert
      have semicolon : ';' ≠ char := ne_of_isInert inert.1 (by decide)
      have inside : (Lexeme.plain char).isEnd = false := by
        simpa [Lexeme.isEnd] using semicolon.symm
      exact splitOnP_isEnd_cons inside (induction inert.2)

theorem exists_plainly_of_isWording (wording : Script.isWording text = true) :
    ∃ lexeme others, plainly text = lexeme :: others ∧ lexeme.isGap = false := by
  cases text with
  | nil => cases wording
  | cons char text =>
      rcases Bool.and_eq_true_iff.mp wording with ⟨parts, _⟩
      have word : isWord char = true := (Bool.and_eq_true_iff.mp parts).1
      exact ⟨.plain char, plainly text, rfl, not_isBlank_of_isWord word⟩

theorem dropWhile_plainly (wording : Script.isWording text = true) (rest : List Lexeme) :
    (plainly text ++ rest).dropWhile Lexeme.isGap = plainly text ++ rest := by
  rcases exists_plainly_of_isWording wording with ⟨lexeme, others, equal, solid⟩
  rw [equal, List.cons_append, List.dropWhile_cons_of_neg (by rw [solid]; exact Bool.false_ne_true)]

theorem isBarrier_of_isWording (wording : Script.isWording text = true) (rest : List Char) :
    isBarrier (text ++ rest) = true := by
  rcases Bool.and_eq_true_iff.mp wording with ⟨parts, inert⟩
  have goesOn := (Bool.and_eq_true_iff.mp parts).2
  clear wording parts
  unfold isBarrier
  induction text with
  | nil => cases goesOn
  | cons char text induction =>
      rw [List.all_cons, Bool.and_eq_true] at inert
      rw [List.cons_append, List.dropWhile_cons]
      cases part : isTagPart char with
      | true =>
          rw [List.any_cons, part] at goesOn
          exact induction inert.2 goesOn
      | false =>
          have dash : '-' ≠ char := ne_of_isInert inert.1 (by decide)
          have star : '*' ≠ char := ne_of_isInert inert.1 (by decide)
          have dollar : '$' ≠ char := ne_of_isInert inert.1 (by decide)
          simp [dash.symm, star.symm, dollar.symm]

/-! ## Statements with other wordings -/

/-- Lexemes that a dialect makes of others: at some places where a rule finds a wording outside of
quotes, the one that it writes instead stands there, and everything else is as it was. -/
inductive Reworded (dialect : Dialect) : (new old : List Lexeme) → Prop where
  | nil : Reworded dialect [] []
  | keep {new old : List Lexeme} (lexeme : Lexeme) (others : Reworded dialect new old) :
      Reworded dialect (lexeme :: new) (lexeme :: old)
  | replace {new old : List Lexeme} {rule : Rule} {piece : List Char}
      (among : rule ∈ rules dialect) (rewords : rule.pattern.isWording = true)
      (found : rule.pattern.after? none piece = some []) (others : Reworded dialect new old) :
      Reworded dialect (plainly rule.replacement.toList ++ new) (plainly piece ++ old)

namespace Reworded

variable {dialect : Dialect} {new old moreNew moreOld : List Lexeme}

theorem refl (dialect : Dialect) (lexemes : List Lexeme) : Reworded dialect lexemes lexemes := by
  induction lexemes with
  | nil => exact .nil
  | cons lexeme lexemes induction => exact .keep lexeme induction

theorem append (first : Reworded dialect new old) (second : Reworded dialect moreNew moreOld) :
    Reworded dialect (new ++ moreNew) (old ++ moreOld) := by
  induction first with
  | nil => exact second
  | keep lexeme _ induction => exact .keep lexeme induction
  | replace among rewords found _ induction =>
      rw [List.append_assoc, List.append_assoc]
      exact .replace among rewords found induction

theorem splitOnP (reworded : Reworded dialect new old) :
    List.Forall₂ (Reworded dialect) (new.splitOnP Lexeme.isEnd) (old.splitOnP Lexeme.isEnd) := by
  induction reworded with
  | nil => exact .cons .nil .nil
  | @keep new old lexeme _ induction =>
      cases ends : lexeme.isEnd with
      | true =>
          rw [List.splitOnP_cons_eq_if_modifyHead, List.splitOnP_cons_eq_if_modifyHead, if_pos ends,
            if_pos ends]
          exact .cons .nil induction
      | false =>
          rcases exists_splitOnP_isEnd new with ⟨first, others, split⟩
          rcases exists_splitOnP_isEnd old with ⟨oldFirst, oldOthers, oldSplit⟩
          rw [split, oldSplit, List.forall₂_cons] at induction
          rw [splitOnP_isEnd_cons ends split, splitOnP_isEnd_cons ends oldSplit]
          exact .cons (.keep lexeme induction.1) induction.2
  | @replace new old rule piece among rewords found _ induction =>
      rcases exists_splitOnP_isEnd new with ⟨first, others, split⟩
      rcases exists_splitOnP_isEnd old with ⟨oldFirst, oldOthers, oldSplit⟩
      rw [split, oldSplit, List.forall₂_cons] at induction
      have written := inert_of_isWording (isWording_of_replacement among rewords)
      have read := inert_of_isWording (isWording_of_found rewords found)
      rw [splitOnP_plainly written split, splitOnP_plainly read oldSplit]
      exact .cons (.replace among rewords found induction.1) induction.2

theorem dropWhile (reworded : Reworded dialect new old) :
    Reworded dialect (new.dropWhile Lexeme.isGap) (old.dropWhile Lexeme.isGap) := by
  induction reworded with
  | nil => exact .nil
  | keep lexeme others induction =>
      rw [List.dropWhile_cons, List.dropWhile_cons]
      split
      · exact induction
      · exact .keep lexeme others
  | replace among rewords found others _ =>
      rw [dropWhile_plainly (isWording_of_replacement among rewords),
        dropWhile_plainly (isWording_of_found rewords found)]
      exact .replace among rewords found others

theorem isEmpty_eq (reworded : Reworded dialect new old) : new.isEmpty = old.isEmpty := by
  cases reworded with
  | nil => rfl
  | keep => rfl
  | replace among rewords found =>
      rcases exists_plainly_of_isWording (isWording_of_replacement among rewords) with
        ⟨_, _, written, _⟩
      rcases exists_plainly_of_isWording (isWording_of_found rewords found) with ⟨_, _, read, _⟩
      rw [written, read]
      rfl

theorem statements (reworded : Reworded dialect new old) :
    List.Forall₂ (Reworded dialect) (Script.statements new) (Script.statements old) := by
  have stripped : List.Forall₂ (Reworded dialect)
      ((new.splitOnP Lexeme.isEnd).map (List.dropWhile Lexeme.isGap))
      ((old.splitOnP Lexeme.isEnd).map (List.dropWhile Lexeme.isGap)) :=
    List.rel_map (fun _ _ reworded => reworded.dropWhile) reworded.splitOnP
  refine List.rel_filter ?_ stripped
  intro new old reworded
  show (!new.isEmpty) = true ↔ (!old.isEmpty) = true
  rw [reworded.isEmpty_eq]

end Reworded

end SchemaDdl.Script
