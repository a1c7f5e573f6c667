import SchemaDdl.Proofs.Script.Segments
import SchemaDdl.Proofs.Text.Splitting

/-!
# How lines open

The rules for D1 look at the first word of a line. A text that opens with none of their words is
left alone, whatever follows it, and a name that is written in front of a blank opens with none of
them, for all of them are reserved.
-/

namespace SchemaDdl.Text

theorem afterLetters?_append {letters text rest : List Char}
    (found : afterLetters? letters text = some rest) (more : List Char) :
    afterLetters? letters (text ++ more) = some (rest ++ more) := by
  induction letters generalizing text with
  | nil =>
      cases found
      rfl
  | cons letter letters induction =>
      cases text with
      | nil => cases found
      | cons char text =>
          rw [afterLetters?] at found
          rw [List.cons_append, afterLetters?]
          split at found
          · rename_i same
            rw [if_pos same]
            exact induction found
          · cases found

end SchemaDdl.Text

namespace SchemaDdl.Script

open Text

def isCut (text : List Char) : Bool :=
  text.head?.all fun char => isBlank char || char == ';'

def opensWith (words : List String) (text : List Char) : Bool :=
  words.any fun word => (afterLetters? word.toList (text.dropWhile isIndent)).any isCut

def Quiet (words : List String) (text : List Char) : Prop :=
  ∀ rest : List Char, opensWith words (text ++ rest) = false

variable {words : List String}

theorem Quiet.append {text : List Char} (quiet : Quiet words text) (more : List Char) :
    Quiet words (text ++ more) := by
  intro rest
  rw [List.append_assoc]
  exact quiet (more ++ rest)

theorem Quiet.indent {text : List Char} (quiet : Quiet words text) {char : Char}
    (blank : isIndent char = true) : Quiet words (char :: text) := by
  intro rest
  have opens := quiet rest
  unfold opensWith at opens ⊢
  rw [List.cons_append, List.dropWhile_cons_of_pos blank]
  exact opens

theorem Quiet.mono {fewer : List String} {text : List Char} (quiet : Quiet words text)
    (among : ∀ word ∈ fewer, word ∈ words) : Quiet fewer text := by
  intro rest
  have opens := quiet rest
  unfold opensWith at opens ⊢
  rw [List.any_eq_false] at opens ⊢
  intro word member
  exact opens word (among word member)

theorem isCut_of_afterPhrase? {word : String} {others : Phrase} {text rest : List Char}
    (found : afterPhrase? (word :: others) text = some rest)
    (cut : others ≠ [] ∨ isCut rest = true) :
    ∃ after, afterLetters? word.toList text = some after ∧ isCut after = true := by
  cases others with
  | nil =>
      rcases cut with absent | cut
      · exact absurd rfl absent
      · exact ⟨rest, found, cut⟩
  | cons next others =>
      rw [afterPhrase?] at found
      · rcases Option.bind_eq_some_iff.mp found with ⟨between, blanks, _⟩
        rcases Option.bind_eq_some_iff.mp blanks with ⟨after, letters, blank⟩
        refine ⟨after, letters, ?_⟩
        cases after with
        | nil => cases blank
        | cons char after =>
            rw [afterBlanks?] at blank
            split at blank
            · rename_i holds
              simp [isCut, holds]
            · cases blank
      · exact List.cons_ne_nil _ _

/-! ## Patterns that look for opening words -/

def beginWith (words : List String) (phrases : List Phrase) : Bool :=
  phrases.all fun phrase => phrase.head?.any (words.contains ·)

theorem afterSentence?_of_opensWith {phrases : List Phrase} {text : List Char}
    (begins : beginWith words phrases = true) (silent : opensWith words text = false) :
    afterSentence? phrases text = none := by
  unfold afterSentence?
  cases split : splitFirst ';' (text.dropWhile isIndent) with
  | none => rfl
  | some parts =>
      rcases parts with ⟨inside, rest⟩
      rw [Option.bind_some]
      apply if_neg
      intro found
      rcases Option.isSome_iff_exists.mp found with ⟨blanks, found⟩
      rcases List.exists_of_findSome?_eq_some found with ⟨phrase, member, found⟩
      rcases Option.filter_eq_some_iff.mp found with ⟨found, blank⟩
      have begins := List.all_eq_true.mp begins phrase member
      cases phrase with
      | nil => cases begins
      | cons word others =>
          have cut : isCut blanks = true := by
            cases blanks with
            | nil => rfl
            | cons char blanks =>
                have first := List.all_eq_true.mp blank char List.mem_cons_self
                simp [isCut, first]
          rcases isCut_of_afterPhrase? found (Or.inr cut) with ⟨after, letters, cut⟩
          have whole := afterLetters?_append letters (';' :: rest)
          rw [← eq_of_splitFirst split] at whole
          have still : isCut (after ++ ';' :: rest) = true := by
            cases after with
            | nil => rfl
            | cons char after => exact cut
          unfold opensWith at silent
          rw [List.any_eq_false] at silent
          have among : word ∈ words := by simpa using begins
          apply silent word among
          rw [whole]
          exact still

theorem afterStatement?_of_opensWith {heads : List Phrase} {demand : Demand} {text : List Char}
    (begins : beginWith words heads = true) (longer : ∀ head ∈ heads, 1 < head.length)
    (silent : opensWith words text = false) :
    afterStatement? heads demand text = none := by
  have missing : afterHead? heads text = none := by
    apply Option.eq_none_iff_forall_not_mem.mpr
    intro rest found
    rcases List.exists_of_findSome?_eq_some (Option.mem_def.mp found) with ⟨head, member, found⟩
    rcases Option.filter_eq_some_iff.mp found with ⟨found, _⟩
    have begins := List.all_eq_true.mp begins head member
    have length := longer head member
    cases head with
    | nil => cases begins
    | cons word others =>
        have more : others ≠ [] := by
          intro empty
          rw [empty] at length
          exact Nat.lt_irrefl 1 length
        rcases isCut_of_afterPhrase? found (Or.inl more) with ⟨after, letters, cut⟩
        unfold opensWith at silent
        rw [List.any_eq_false] at silent
        have among : word ∈ words := by simpa using begins
        apply silent word among
        rw [letters]
        exact cut
  rw [afterStatement?, missing]
  rfl

def Pattern.asksFor (words : List String) : Pattern → Bool
  | .statement heads _ => beginWith words heads && heads.all (1 < ·.length)
  | .sentence phrases => beginWith words phrases
  | .definition _ | .phrase _ | .call _ => false

theorem Pattern.after?_of_opensWith {pattern : Pattern} (asks : pattern.asksFor words = true)
    {text : List Char} (silent : opensWith words text = false) (previous : Option Char) :
    pattern.after? previous text = none := by
  unfold Pattern.after?
  cases pattern with
  | statement heads demand =>
      rcases Bool.and_eq_true_iff.mp asks with ⟨begins, longer⟩
      have longer : ∀ head ∈ heads, 1 < head.length := by simpa using longer
      simp only [afterStatement?_of_opensWith begins longer silent, ite_self]
  | sentence phrases => simp only [afterSentence?_of_opensWith asks silent, ite_self]
  | definition heads => cases asks
  | phrase phrase => cases asks
  | call function => cases asks

end SchemaDdl.Script
