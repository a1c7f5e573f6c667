import SchemaDdl.Proofs.Script.Opening

/-!
# How far patterns look

A pattern for statements that finds something has read up to a semicolon, and of what follows the
semicolon only the end of the line. The other patterns read the piece itself, and look at the
character behind it only where a word could go on.
-/

namespace SchemaDdl.Text

def isStop (char : Char) : Bool :=
  !isWord char && !isBlank char

def isWorded (phrase : Phrase) : Bool :=
  phrase.all fun word => !word.toList.isEmpty && word.toList.all isWord

theorem isWord_fold (char : Char) : isWord (fold char) = isWord char := by
  have each : ∀ code : Fin 128, isWord (fold (Char.ofNat code)) = isWord (Char.ofNat code) := by
    decide +kernel
  rcases Nat.lt_or_ge char.toNat 128 with small | large
  · have same := each ⟨char.toNat, small⟩
    rw [Char.ofNat_toNat] at same
    exact same
  · unfold fold
    split
    · rename_i long
      rw [long]
      decide +kernel
    · split
      · rename_i kelvin
        rw [kelvin]
        decide +kernel
      · have lower : char.toLower = char := by
          unfold Char.toLower
          rw [dif_neg]
          rintro ⟨_, upper⟩
          have : char.toNat ≤ 90 := upper
          omega
        rw [lower]

variable {stop : Char} {text rest : List Char}

theorem not_isWord_of_isStop (stops : isStop stop = true) : isWord stop = false := by
  simpa using (Bool.and_eq_true_iff.mp stops).1

theorem not_isBlank_of_isStop (stops : isStop stop = true) : isBlank stop = false := by
  simpa using (Bool.and_eq_true_iff.mp stops).2

theorem afterPhrase?_cons_cons (word next : String) (words : Phrase) (text : List Char) :
    afterPhrase? (word :: next :: words) text =
      ((afterLetters? word.toList text).bind afterBlanks?).bind (afterPhrase? (next :: words)) :=
  rfl

/-! ## Reading up to a stop -/

theorem afterLetters?_stop {letters : List Char} (worded : letters.all isWord = true)
    (stops : isStop stop = true) :
    afterLetters? letters (text ++ stop :: rest) =
      (afterLetters? letters text).map (· ++ stop :: rest) := by
  induction letters generalizing text with
  | nil => rfl
  | cons letter letters induction =>
      rw [List.all_cons, Bool.and_eq_true] at worded
      cases text with
      | nil =>
          have other : fold stop ≠ fold letter := by
            intro same
            have word := isWord_fold stop
            rw [same, isWord_fold, worded.1, not_isWord_of_isStop stops] at word
            cases word
          exact if_neg other
      | cons char text =>
          rw [List.cons_append, afterLetters?, afterLetters?]
          split
          · exact induction worded.2
          · rfl

theorem dropWhile_stop {test : Char → Bool} (stops : test stop = false) :
    (text ++ stop :: rest).dropWhile test = text.dropWhile test ++ stop :: rest := by
  induction text with
  | nil => exact List.dropWhile_cons_of_neg (by rw [stops]; exact Bool.false_ne_true)
  | cons char text induction =>
      rw [List.cons_append, List.dropWhile_cons, List.dropWhile_cons, induction]
      split <;> rfl

theorem takeWhile_stop {test : Char → Bool} (stops : test stop = false) :
    (text ++ stop :: rest).takeWhile test = text.takeWhile test := by
  induction text with
  | nil => exact List.takeWhile_cons_of_neg (by rw [stops]; exact Bool.false_ne_true)
  | cons char text induction =>
      rw [List.cons_append, List.takeWhile_cons, List.takeWhile_cons, induction]

theorem after?_stop {beginning : List Char} (outside : stop ∉ beginning) :
    after? beginning (text ++ stop :: rest) = (after? beginning text).map (· ++ stop :: rest) := by
  induction beginning generalizing text with
  | nil => rfl
  | cons expected beginning induction =>
      rw [List.mem_cons, not_or] at outside
      cases text with
      | nil => exact if_neg (Ne.symm outside.1)
      | cons char text =>
          rw [List.cons_append, after?, after?]
          split
          · exact induction outside.2
          · rfl

theorem afterBlanks?_stop (stops : isStop stop = true) :
    afterBlanks? (text ++ stop :: rest) = (afterBlanks? text).map (· ++ stop :: rest) := by
  have solid := not_isBlank_of_isStop stops
  cases text with
  | nil => exact if_neg (by rw [solid]; exact Bool.false_ne_true)
  | cons char text =>
      rw [List.cons_append, afterBlanks?, afterBlanks?, dropWhile_stop solid]
      split <;> rfl

theorem afterPhrase?_stop {phrase : Phrase} (worded : isWorded phrase = true)
    (stops : isStop stop = true) :
    afterPhrase? phrase (text ++ stop :: rest) =
      (afterPhrase? phrase text).map (· ++ stop :: rest) := by
  induction phrase generalizing text with
  | nil => rfl
  | cons word words induction =>
      unfold isWorded at worded induction
      rw [List.all_cons, Bool.and_eq_true, Bool.and_eq_true] at worded
      rcases worded with ⟨⟨_, letters⟩, worded⟩
      cases words with
      | nil => exact afterLetters?_stop letters stops
      | cons next words =>
          rw [afterPhrase?_cons_cons, afterPhrase?_cons_cons, afterLetters?_stop letters stops]
          cases afterLetters? word.toList text with
          | none => rfl
          | some between =>
              rw [Option.map_some, Option.bind_some, Option.bind_some, afterBlanks?_stop stops]
              cases afterBlanks? between with
              | none => rfl
              | some others => exact induction worded

theorem wordEnds_stop (stops : isStop stop = true) :
    wordEnds (text ++ stop :: rest) = wordEnds text := by
  cases text with
  | nil => simp [wordEnds, not_isWord_of_isStop stops]
  | cons char text => rfl

theorem afterAnyPhrase?_stop {phrases : List Phrase} (worded : phrases.all isWorded = true)
    (stops : isStop stop = true) :
    afterAnyPhrase? wordEnds phrases (text ++ stop :: rest) =
      (afterAnyPhrase? wordEnds phrases text).map (· ++ stop :: rest) := by
  induction phrases with
  | nil => rfl
  | cons phrase phrases induction =>
      rw [List.all_cons, Bool.and_eq_true] at worded
      unfold afterAnyPhrase? at induction ⊢
      rw [List.findSome?_cons, List.findSome?_cons, afterPhrase?_stop worded.1 stops,
        induction worded.2]
      cases afterPhrase? phrase text with
      | none => rfl
      | some others =>
          rw [Option.map_some, Option.filter_some, Option.filter_some, wordEnds_stop stops]
          cases wordEnds others <;> rfl

/-! ## What is left is the end of the text -/

theorem suffix_of_afterLetters? {letters : List Char}
    (found : afterLetters? letters text = some rest) : rest <:+ text := by
  induction letters generalizing text with
  | nil =>
      cases found
      exact List.suffix_rfl
  | cons letter letters induction =>
      cases text with
      | nil => cases found
      | cons char text =>
          rw [afterLetters?] at found
          split at found
          · exact (induction found).trans (List.suffix_cons char text)
          · cases found

theorem suffix_of_after? {beginning : List Char} (found : after? beginning text = some rest) :
    rest <:+ text := by
  induction beginning generalizing text with
  | nil =>
      cases found
      exact List.suffix_rfl
  | cons expected beginning induction =>
      cases text with
      | nil => cases found
      | cons char text =>
          rw [after?] at found
          split at found
          · exact (induction found).trans (List.suffix_cons char text)
          · cases found

theorem suffix_of_afterBlanks? (found : afterBlanks? text = some rest) : rest <:+ text := by
  cases text with
  | nil => cases found
  | cons char text =>
      rw [afterBlanks?] at found
      split at found
      · cases found
        exact (List.dropWhile_suffix isBlank).trans (List.suffix_cons char text)
      · cases found

theorem suffix_of_afterPhrase? {phrase : Phrase} (found : afterPhrase? phrase text = some rest) :
    rest <:+ text := by
  induction phrase generalizing text with
  | nil =>
      cases found
      exact List.suffix_rfl
  | cons word words induction =>
      cases words with
      | nil => exact suffix_of_afterLetters? found
      | cons next words =>
          rcases Option.bind_eq_some_iff.mp found with ⟨others, blanks, found⟩
          rcases Option.bind_eq_some_iff.mp blanks with ⟨between, letters, blanks⟩
          exact (induction found).trans
            ((suffix_of_afterBlanks? blanks).trans (suffix_of_afterLetters? letters))

theorem suffix_of_afterAnyPhrase? {accepts : List Char → Bool} {phrases : List Phrase}
    (found : afterAnyPhrase? accepts phrases text = some rest) : rest <:+ text := by
  rcases List.exists_of_findSome?_eq_some found with ⟨phrase, _, found⟩
  exact suffix_of_afterPhrase? (Option.filter_eq_some_iff.mp found).1

end SchemaDdl.Text

namespace SchemaDdl.Script

open Text

variable {heads : List Phrase} {text : List Char}

theorem not_isIndent_of_isStop {stop : Char} (stops : isStop stop = true) :
    isIndent stop = false := by
  rw [Bool.eq_false_iff]
  intro indent
  have solid := not_isBlank_of_isStop stops
  rcases Bool.or_eq_true_iff.mp indent with space | tab
  · rw [eq_of_beq space] at solid
    cases solid
  · rw [eq_of_beq tab] at solid
    cases solid

theorem isStop_semicolon : isStop ';' = true := by
  decide

/-! ## Statements -/

theorem afterHead?_stop {stop : Char} (worded : heads.all isWorded = true)
    (stops : isStop stop = true) (rest : List Char) :
    afterHead? heads (text ++ stop :: rest) = (afterHead? heads text).map (· ++ stop :: rest) := by
  rw [afterHead?, dropWhile_stop (not_isIndent_of_isStop stops), afterAnyPhrase?_stop worded stops,
    afterHead?]

theorem suffix_of_afterHead? {rest : List Char} (found : afterHead? heads text = some rest) :
    rest <:+ text :=
  (suffix_of_afterAnyPhrase? found).trans (List.dropWhile_suffix isIndent)

/-- What a pattern for statements reads ends with a semicolon and the end of its line, whatever
follows. -/
def ReadsStatement (after? : List Char → Option (List Char)) (text rest : List Char) : Prop :=
  ∃ body tail, text = body ++ ';' :: tail ∧ rest = afterLineEnd tail ∧
    ∀ other, after? (body ++ ';' :: other) = some (afterLineEnd other)

theorem readsStatement_of_afterStatement? {demand : Demand} {rest : List Char}
    (worded : heads.all isWorded = true) (found : afterStatement? heads demand text = some rest) :
    ReadsStatement (afterStatement? heads demand) text rest := by
  rcases Option.bind_eq_some_iff.mp found with ⟨⟨inside, tail⟩, split, found⟩
  rcases Option.bind_eq_some_iff.mp split with ⟨opened, head, split⟩
  have absent := not_mem_of_splitFirst split
  rw [eq_of_splitFirst split] at head
  rcases suffix_of_afterHead? head with ⟨front, whole⟩
  rw [← List.append_assoc] at whole
  rcases Option.ite_none_right_eq_some.mp found with ⟨accepts, equal⟩
  cases equal
  refine ⟨front ++ inside, tail, whole.symm, rfl, ?_⟩
  intro other
  rw [← whole, afterHead?_stop worded isStop_semicolon] at head
  rcases Option.map_eq_some_iff.mp head with ⟨short, head, equal⟩
  rw [List.append_cancel_right equal] at head
  rw [afterStatement?, afterHead?_stop worded isStop_semicolon, head, Option.map_some,
    Option.bind_some, splitFirst_of_not_mem absent, Option.bind_some]
  exact if_pos accepts

theorem readsStatement_of_afterSentence? {phrases : List Phrase} {rest : List Char}
    (found : afterSentence? phrases text = some rest) :
    ReadsStatement (afterSentence? phrases) text rest := by
  rcases Option.bind_eq_some_iff.mp found with ⟨⟨inside, tail⟩, split, found⟩
  have absent := not_mem_of_splitFirst split
  have opened := eq_of_splitFirst split
  have indent : isIndent ';' = false := by decide
  rcases List.dropWhile_suffix isIndent (l := text) with ⟨front, whole⟩
  rw [opened, ← List.append_assoc] at whole
  rcases Option.ite_none_right_eq_some.mp found with ⟨accepts, equal⟩
  cases equal
  refine ⟨front ++ inside, tail, whole.symm, rfl, ?_⟩
  intro other
  rw [← whole, dropWhile_stop indent] at opened
  rw [afterSentence?, dropWhile_stop indent, List.append_cancel_right opened,
    splitFirst_of_not_mem absent, Option.bind_some]
  exact if_pos accepts

/-! ## Quoted bodies -/

section Body

variable {rest left : List Char}

theorem dollarTag?_of_ne {char : Char} (other : char ≠ '$') : dollarTag? (char :: text) = none := by
  unfold dollarTag?
  split
  · rename_i equal
    cases equal
    exact absurd rfl other
  · rfl

theorem dollarTag?_spec {tag : List Char} (found : dollarTag? text = some (tag, rest)) :
    ∃ name : List Char, tag = '$' :: (name ++ ['$']) ∧ name.all isTagPart = true ∧
      text = tag ++ rest := by
  unfold dollarTag? at found
  split at found
  · rename_i text
    dsimp only at found
    split at found
    · rename_i body behind
      split at found
      · cases found
        refine ⟨text.takeWhile isTagPart, rfl, List.all_takeWhile, ?_⟩
        have whole := List.takeWhile_append_dropWhile (p := isTagPart) (l := text)
        rw [behind] at whole
        conv => lhs; rw [← whole]
        simp
      · cases found
    · cases found
  · cases found

theorem dollarTag?_stop :
    dollarTag? (text ++ ';' :: rest) =
      (dollarTag? text).map fun (tag, body) => (tag, body ++ ';' :: rest) := by
  have part : isTagPart ';' = false := by decide
  cases text with
  | nil => rfl
  | cons char text =>
      rcases Decidable.em (char = '$') with rfl | other
      · unfold dollarTag?
        simp only [List.cons_append, takeWhile_stop part, dropWhile_stop part]
        cases text.dropWhile isTagPart with
        | nil => rfl
        | cons char text =>
            rcases Decidable.em (char = '$') with rfl | other
            · simp only [List.cons_append]
              split <;> rfl
            · split
              · rename_i equal
                cases equal
                exact absurd rfl other
              · split
                · rename_i equal
                  cases equal
                  exact absurd rfl other
                · rfl
      · rw [List.cons_append, dollarTag?_of_ne other, dollarTag?_of_ne other]
        rfl

theorem afterOpeningQuote?_stop {stop : Char} (stops : isStop stop = true) (plain : stop ≠ '\'') :
    afterOpeningQuote? (text ++ stop :: rest) =
      (afterOpeningQuote? text).map (· ++ stop :: rest) := by
  have worded : "as".toList.all isWord = true := by decide
  unfold afterOpeningQuote?
  rw [afterLetters?_stop worded stops]
  cases afterLetters? "as".toList text with
  | none => rfl
  | some after =>
      rw [Option.map_some, Option.bind_some, Option.bind_some, afterBlanks?_stop stops]
      cases afterBlanks? after with
      | none => rfl
      | some opened =>
          cases opened with
          | nil =>
              split
              · rename_i equal
                cases equal
                exact absurd rfl plain
              · rfl
          | cons char opened =>
              rw [Option.map_some, List.cons_append]
              rcases Decidable.em (char = '\'') with rfl | other
              · rfl
              · split
                · rename_i equal
                  cases equal
                  exact absurd rfl other
                · split
                  · rename_i equal
                    cases equal
                    exact absurd rfl other
                  · rfl

theorem suffix_of_afterOccurrence? {needle : List Char}
    (found : afterOccurrence? needle text = some rest) : rest <:+ text := by
  induction text with
  | nil => exact suffix_of_after? found
  | cons char text induction =>
      rw [afterOccurrence?] at found
      rcases Option.or_eq_some_iff.mp found with here | ⟨_, later⟩
      · exact suffix_of_after? here
      · exact (induction later).trans (List.suffix_cons char text)

theorem suffix_of_afterClosingQuote? (found : afterClosingQuote? text = some rest) :
    rest <:+ text := by
  fun_induction afterClosingQuote? text with
  | case1 => cases found
  | case2 text induction =>
      exact (induction found).trans ((List.suffix_cons _ _).trans (List.suffix_cons _ _))
  | case3 text _ =>
      cases found
      exact List.suffix_cons _ _
  | case4 char text _ _ induction => exact (induction found).trans (List.suffix_cons char text)

theorem not_suffix_semicolon : ¬ left ++ ';' :: rest <:+ rest := by
  intro suffix
  have length := suffix.length_le
  rw [List.length_append, List.length_cons] at length
  omega

theorem afterOccurrence?_stop {needle : List Char} (outside : ';' ∉ needle) (nonempty : needle ≠ [])
    (found : afterOccurrence? needle (text ++ ';' :: rest) = some (left ++ ';' :: rest))
    (other : List Char) :
    afterOccurrence? needle (text ++ ';' :: other) = some (left ++ ';' :: other) := by
  have missing : after? needle [] = none := by
    cases needle with
    | nil => exact absurd rfl nonempty
    | cons => rfl
  induction text with
  | nil =>
      have stopped := @after?_stop ';' [] rest needle outside
      rw [missing, Option.map_none, List.nil_append] at stopped
      rw [List.nil_append, afterOccurrence?, stopped, Option.none_or] at found
      exact absurd (suffix_of_afterOccurrence? found) not_suffix_semicolon
  | cons char text induction =>
      rw [List.cons_append, afterOccurrence?, ← List.cons_append, after?_stop outside] at found ⊢
      cases here : after? needle (char :: text) with
      | some after =>
          rw [here, Option.map_some, Option.some_or] at found
          rw [Option.map_some, Option.some_or, List.append_cancel_right (Option.some.inj found)]
      | none =>
          rw [here, Option.map_none, Option.none_or] at found
          rw [Option.map_none, Option.none_or]
          exact induction found

theorem afterClosingQuote?_quote (single : text.head? ≠ some '\'') :
    afterClosingQuote? ('\'' :: text) = some text := by
  cases text with
  | nil => rfl
  | cons char text =>
      rw [afterClosingQuote?]
      intro others equal
      cases equal
      exact single rfl

theorem afterClosingQuote?_of_ne {char : Char} (other : char ≠ '\'') :
    afterClosingQuote? (char :: text) = afterClosingQuote? text := by
  rw [afterClosingQuote?]
  · intro others equal
    exact fun _ => other equal
  · exact other

theorem afterClosingQuote?_stop
    (found : afterClosingQuote? (text ++ ';' :: rest) = some (left ++ ';' :: rest))
    (other : List Char) :
    afterClosingQuote? (text ++ ';' :: other) = some (left ++ ';' :: other) := by
  have plain : ';' ≠ '\'' := by decide
  fun_induction afterClosingQuote? text with
  | case1 =>
      rw [List.nil_append, afterClosingQuote?_of_ne plain] at found
      exact absurd (suffix_of_afterClosingQuote? found) not_suffix_semicolon
  | case2 text induction => exact induction found
  | case3 text single =>
      have open_ : ∀ more : List Char, (text ++ ';' :: more).head? ≠ some '\'' := by
        intro more
        cases text with
        | nil => exact fun same => plain (Option.some.inj same)
        | cons char text => exact fun same => single text (by rw [Option.some.inj same])
      rw [List.cons_append, afterClosingQuote?_quote (open_ _)] at found ⊢
      rw [List.append_cancel_right (Option.some.inj found)]
  | case4 char text _ solid induction =>
      have solid : char ≠ '\'' := solid
      rw [List.cons_append, afterClosingQuote?_of_ne solid] at found ⊢
      exact induction found

theorem suffix_of_afterOpeningQuote? (found : afterOpeningQuote? text = some rest) :
    rest <:+ text := by
  unfold afterOpeningQuote? at found
  split at found
  · rename_i body opened
    cases found
    rcases Option.bind_eq_some_iff.mp opened with ⟨between, letters, blanks⟩
    exact (List.suffix_cons _ _).trans
      ((suffix_of_afterBlanks? blanks).trans (suffix_of_afterLetters? letters))
  · cases found

theorem suffix_of_afterBody? {previous : Option Char}
    (found : afterBody? previous text = some rest) :
    rest <:+ text := by
  induction text generalizing previous with
  | nil => cases found
  | cons char text induction =>
      rw [afterBody?] at found
      split at found
      · rename_i tag body tagged
        rcases dollarTag?_spec tagged with ⟨_, _, _, whole⟩
        rw [whole]
        exact (suffix_of_afterOccurrence? found).trans (List.suffix_append tag body)
      · split at found
        · rename_i body opened
          rcases Option.ite_none_right_eq_some.mp opened with ⟨_, opened⟩
          exact (suffix_of_afterClosingQuote? found).trans (suffix_of_afterOpeningQuote? opened)
        · split at found
          · cases found
          · exact (induction found).trans (List.suffix_cons char text)

theorem afterBody?_stop {previous : Option Char}
    (found : afterBody? previous (text ++ ';' :: rest) = some (left ++ ';' :: rest))
    (other : List Char) :
    afterBody? previous (text ++ ';' :: other) = some (left ++ ';' :: other) := by
  induction text generalizing previous with
  | nil =>
      have unopened : ∀ previous, afterBody? previous (';' :: rest) = none := by
        intro previous
        rw [afterBody?, dollarTag?_of_ne (by decide)]
        cases wordBegins previous <;> rfl
      rw [List.nil_append, unopened] at found
      cases found
  | cons char text induction =>
      rw [List.cons_append, afterBody?, ← List.cons_append, dollarTag?_stop,
        afterOpeningQuote?_stop isStop_semicolon (by decide)] at found ⊢
      cases tagged : dollarTag? (char :: text) with
      | some parts =>
          rcases parts with ⟨tag, body⟩
          rw [tagged] at found
          rcases dollarTag?_spec tagged with ⟨name, rfl, parts, _⟩
          have outside : ';' ∉ '$' :: (name ++ ['$']) := by
            intro among
            rcases List.mem_cons.mp among with dollar | among
            · exact absurd dollar (by decide)
            · rcases List.mem_append.mp among with named | dollar
              · exact absurd (List.all_eq_true.mp parts _ named) (by decide)
              · exact absurd (List.mem_singleton.mp dollar) (by decide)
          exact afterOccurrence?_stop outside (List.cons_ne_nil _ _) found other
      | none =>
          rw [tagged] at found
          simp only [Option.map_none] at found ⊢
          have quoted : ∀ more : List Char,
              (if wordBegins previous then
                  (afterOpeningQuote? (char :: text)).map (· ++ ';' :: more)
                else none) =
                (if wordBegins previous then afterOpeningQuote? (char :: text) else none).map
                  (· ++ ';' :: more) := by
            intro more
            split <;> rfl
          rw [quoted] at found ⊢
          cases opened :
              if wordBegins previous then afterOpeningQuote? (char :: text) else none with
          | some body =>
              rw [opened] at found
              exact afterClosingQuote?_stop found other
          | none =>
              rw [opened] at found
              simp only [Option.map_none] at found ⊢
              split
              · rename_i semicolon
                rw [if_pos semicolon] at found
                cases found
              · rename_i plain
                rw [if_neg plain] at found
                exact induction found

end Body

theorem readsStatement_of_afterDefinition? {rest : List Char}
    (worded : heads.all isWorded = true) (found : afterDefinition? heads text = some rest) :
    ReadsStatement (afterDefinition? heads) text rest := by
  rcases Option.map_eq_some_iff.mp found with ⟨⟨inside, tail⟩, split, equal⟩
  rcases Option.bind_eq_some_iff.mp split with ⟨closed, body, split⟩
  rcases Option.bind_eq_some_iff.mp body with ⟨opened, head, body⟩
  cases equal
  have absent := not_mem_of_splitFirst split
  rw [eq_of_splitFirst split] at body
  rcases suffix_of_afterBody? body with ⟨quoted, whole⟩
  rw [← List.append_assoc] at whole
  rw [← whole] at head body
  rcases suffix_of_afterHead? head with ⟨front, full⟩
  rw [← List.append_assoc] at full
  refine ⟨front ++ (quoted ++ inside), tail, full.symm, rfl, ?_⟩
  intro other
  rw [← full, afterHead?_stop worded isStop_semicolon] at head
  rcases Option.map_eq_some_iff.mp head with ⟨short, head, equal⟩
  rw [List.append_cancel_right equal] at head
  rw [afterDefinition?, afterHead?_stop worded isStop_semicolon, head, Option.map_some,
    Option.bind_some, afterBody?_stop body, Option.bind_some, splitFirst_of_not_mem absent,
    Option.map_some]

/-! ## Phrases and calls -/

theorem exists_of_afterLetters? {letters rest : List Char}
    (found : afterLetters? letters text = some rest) :
    ∃ piece : List Char, text = piece ++ rest ∧ piece.map fold = letters.map fold ∧
      ∀ other : List Char, afterLetters? letters (piece ++ other) = some other := by
  induction letters generalizing text with
  | nil =>
      cases found
      exact ⟨[], rfl, rfl, fun _ => rfl⟩
  | cons letter letters induction =>
      cases text with
      | nil => cases found
      | cons char text =>
          rw [afterLetters?] at found
          rcases Option.ite_none_right_eq_some.mp found with ⟨same, found⟩
          rcases induction found with ⟨piece, whole, letters, again⟩
          refine ⟨char :: piece, by rw [whole, List.cons_append], ?_, ?_⟩
          · rw [List.map_cons, List.map_cons, same, letters]
          · intro other
            rw [List.cons_append, afterLetters?, if_pos same]
            exact again other

theorem head?_dropWhile_any (test : Char → Bool) (text : List Char) :
    (text.dropWhile test).head?.any test = false := by
  cases left : (text.dropWhile test).head? with
  | none => rfl
  | some char => simpa [left] using List.head?_dropWhile_not test text

theorem exists_of_afterBlanks? {rest : List Char} (found : afterBlanks? text = some rest) :
    ∃ blanks : List Char, text = blanks ++ rest ∧ rest.head?.any isBlank = false ∧
      ∀ other : List Char, other.head?.any isBlank = false →
        afterBlanks? (blanks ++ other) = some other := by
  cases text with
  | nil => cases found
  | cons char text =>
      rw [afterBlanks?] at found
      rcases Option.ite_none_right_eq_some.mp found with ⟨blank, found⟩
      cases found
      refine ⟨char :: text.takeWhile isBlank, ?_, head?_dropWhile_any isBlank text, ?_⟩
      · rw [List.cons_append, List.takeWhile_append_dropWhile]
      · intro other solid
        have blanks : ∀ char ∈ text.takeWhile isBlank, isBlank char = true :=
          List.all_eq_true.mp List.all_takeWhile
        rw [List.cons_append, afterBlanks?, if_pos blank, List.dropWhile_append_of_pos blanks]
        cases other with
        | nil => rfl
        | cons next other => rw [List.dropWhile_cons_of_neg (by simpa using solid)]

def endsInWord (text : List Char) : Bool :=
  text.getLast?.any isWord

theorem endsInWord_of_fold {text letters : List Char} (same : text.map fold = letters.map fold)
    (nonempty : letters.isEmpty = false) (worded : letters.all isWord = true) :
    endsInWord text = true := by
  have last : (text.map fold).getLast? = (letters.map fold).getLast? := by rw [same]
  rw [List.getLast?_map, List.getLast?_map] at last
  cases final : letters.getLast? with
  | none => simp [List.getLast?_eq_none_iff.mp final] at nonempty
  | some letter =>
      rw [final] at last
      rcases Option.map_eq_some_iff.mp last with ⟨char, found, equal⟩
      have word := List.all_eq_true.mp worded letter (List.mem_of_getLast? final)
      rw [endsInWord, found, Option.any_some, ← isWord_fold, equal, isWord_fold, word]

theorem endsInWord_append {front back : List Char} (ends : endsInWord back = true) :
    endsInWord (front ++ back) = true := by
  unfold endsInWord at ends ⊢
  rw [List.getLast?_append]
  cases last : back.getLast? with
  | none =>
      rw [last] at ends
      cases ends
  | some char =>
      rw [last] at ends
      exact ends

theorem exists_of_afterPhrase? {phrase : Phrase} {rest : List Char}
    (worded : isWorded phrase = true) (nonempty : phrase ≠ [])
    (found : afterPhrase? phrase text = some rest) :
    ∃ piece : List Char, text = piece ++ rest ∧ endsInWord piece = true ∧
      ∀ other : List Char, afterPhrase? phrase (piece ++ other) = some other := by
  induction phrase generalizing text with
  | nil => exact absurd rfl nonempty
  | cons word words induction =>
      unfold isWorded at worded induction
      rw [List.all_cons, Bool.and_eq_true, Bool.and_eq_true, Bool.not_eq_true'] at worded
      rcases worded with ⟨⟨solid, letters⟩, worded⟩
      cases words with
      | nil =>
          rcases exists_of_afterLetters? found with ⟨piece, whole, same, again⟩
          exact ⟨piece, whole, endsInWord_of_fold same solid letters, again⟩
      | cons next words =>
          rcases Option.bind_eq_some_iff.mp found with ⟨others, blanks, found⟩
          rcases Option.bind_eq_some_iff.mp blanks with ⟨between, first, blanks⟩
          rcases exists_of_afterLetters? first with ⟨start, startWhole, _, startAgain⟩
          rcases exists_of_afterBlanks? blanks with ⟨gap, gapWhole, solid, gapAgain⟩
          rcases induction worded (List.cons_ne_nil _ _) found with ⟨piece, whole, ends, again⟩
          refine ⟨start ++ (gap ++ piece), ?_, ?_, ?_⟩
          · rw [startWhole, gapWhole, whole]
            simp only [List.append_assoc]
          · exact endsInWord_append (endsInWord_append ends)
          · intro other
            have opens : (piece ++ other).head? = others.head? := by
              cases piece with
              | nil => cases ends
              | cons char piece => rw [whole, List.cons_append, List.cons_append]; rfl
            rw [afterPhrase?_cons_cons, List.append_assoc, startAgain, Option.bind_some,
              List.append_assoc, gapAgain _ (by rw [opens, solid]), Option.bind_some]
            exact again other

theorem exists_of_trimStart {rest : List Char} {next : Char}
    (trimmed : trimStart text = next :: rest) :
    ∃ blanks : List Char, text = blanks ++ next :: rest ∧
      ∀ other : List Char, trimStart (blanks ++ next :: other) = next :: other := by
  have blanks : ∀ char ∈ text.takeWhile isBlank, isBlank char = true :=
    List.all_eq_true.mp List.all_takeWhile
  have solid : isBlank next = false := by
    have first := head?_dropWhile_any isBlank text
    unfold trimStart at trimmed
    rw [trimmed] at first
    exact first
  refine ⟨text.takeWhile isBlank, ?_, ?_⟩
  · rw [← trimmed]
    exact List.takeWhile_append_dropWhile.symm
  · intro other
    unfold trimStart
    rw [List.dropWhile_append_of_pos blanks,
      List.dropWhile_cons_of_neg (by rw [solid]; exact Bool.false_ne_true)]

theorem exists_of_afterCall? {function : String} {rest : List Char}
    (found : afterCall? function text = some rest) :
    ∃ piece : List Char, text = piece ++ rest ∧ piece ≠ [] ∧
      ∀ other : List Char, afterCall? function (piece ++ other) = some other := by
  unfold afterCall? at found
  split at found
  · rename_i arguments opened
    split at found
    · rename_i closed
      cases found
      rcases Option.map_eq_some_iff.mp opened with ⟨after, name, opened⟩
      rcases exists_of_afterLetters? name with ⟨called, whole, _, again⟩
      rcases exists_of_trimStart opened with ⟨gap, gapWhole, gapAgain⟩
      rcases exists_of_trimStart closed with ⟨inner, innerWhole, innerAgain⟩
      refine ⟨called ++ (gap ++ '(' :: (inner ++ [')'])), ?_, by simp, ?_⟩
      · rw [whole, gapWhole, innerWhole]
        simp
      · intro other
        unfold afterCall?
        simp only [List.append_assoc, List.cons_append, List.nil_append, again, Option.map_some,
          gapAgain, innerAgain]
    · cases found
  · cases found

/-! ## Patterns -/

def Pattern.isWorded : Pattern → Bool
  | .statement heads _ => heads.all Text.isWorded
  | .sentence phrases => phrases.all Text.isWorded
  | .definition heads => heads.all Text.isWorded
  | .phrase words => Text.isWorded words && !words.isEmpty
  | .call _ => true

theorem isWorded_of_mem_rules {dialect : Dialect} {rule : Rule} (among : rule ∈ rules dialect) :
    rule.pattern.isWorded = true := by
  have each : ∀ dialect : Dialect, (rules dialect).all (·.pattern.isWorded) = true := by
    intro dialect
    cases dialect <;> decide +kernel
  exact List.all_eq_true.mp (each dialect) rule among

variable {pattern : Pattern} {previous : Option Char} {rest : List Char}

theorem Pattern.readsStatement (anchored : pattern.isAnchored = true)
    (worded : pattern.isWorded = true) (found : pattern.after? previous text = some rest) :
    ReadsStatement (pattern.after? previous) text rest := by
  cases begins : lineBegins previous with
  | false =>
      rw [pattern.after?_of_isAnchored anchored, begins] at found
      cases found
  | true =>
      unfold Pattern.after? at found ⊢
      simp only [begins, if_true] at found ⊢
      cases pattern with
      | statement heads demand => exact readsStatement_of_afterStatement? worded found
      | sentence phrases => exact readsStatement_of_afterSentence? found
      | definition heads => exact readsStatement_of_afterDefinition? worded found
      | phrase words => cases anchored
      | call function => cases anchored

theorem suffix_afterLineEnd (text : List Char) : afterLineEnd text <:+ text := by
  have blanks := List.dropWhile_suffix isIndent (l := text)
  unfold afterLineEnd
  split
  · rename_i rest left
    rw [left] at blanks
    exact (List.suffix_append ['\r', '\n'] rest).trans blanks
  · rename_i rest left
    rw [left] at blanks
    exact (List.suffix_cons '\n' rest).trans blanks
  · exact blanks

/-- What a pattern finds it finds whatever follows, as long as a word that the piece ends with does
not go on. It may then read on to another end of a line. -/
theorem Pattern.after?_other (worded : pattern.isWorded = true) {piece other : List Char}
    (found : pattern.after? previous (piece ++ rest) = some rest)
    (nonempty : piece ≠ []) (next : endsInWord piece = true → other.head? = rest.head?) :
    ∃ left, pattern.after? previous (piece ++ other) = some left ∧
      left.length < (piece ++ other).length := by
  cases anchored : pattern.isAnchored with
  | true =>
      rcases Pattern.readsStatement anchored worded found with ⟨body, tail, whole, lineEnd, again⟩
      rcases suffix_afterLineEnd tail with ⟨front, tailWhole⟩
      rw [← lineEnd] at tailWhole
      rw [← tailWhole, ← List.cons_append, ← List.append_assoc] at whole
      rw [List.append_cancel_right whole, List.append_assoc, List.cons_append]
      refine ⟨_, again _, ?_⟩
      have length := (suffix_afterLineEnd (front ++ other)).length_le
      simp only [List.length_append, List.length_cons] at length ⊢
      omega
  | false =>
      have length : other.length < (piece ++ other).length := by
        have := List.length_pos_iff.mpr nonempty
        rw [List.length_append]
        omega
      cases pattern with
      | statement heads demand => cases anchored
      | sentence phrases => cases anchored
      | definition heads => cases anchored
      | phrase words =>
          rcases Option.ite_none_right_eq_some.mp found with ⟨begins, found⟩
          rcases Option.filter_eq_some_iff.mp found with ⟨found, ends⟩
          rcases Bool.and_eq_true_iff.mp worded with ⟨worded, some⟩
          rcases exists_of_afterPhrase? worded (by simpa using some) found with
            ⟨piece, whole, inWord, again⟩
          cases List.append_cancel_right whole
          refine ⟨other, ?_, length⟩
          unfold Pattern.after?
          simp only [begins, if_true, again]
          have same : wordEnds other = wordEnds rest := by
            unfold wordEnds
            rw [next inWord]
          rw [Option.filter_some, same, ends, if_pos rfl]
      | call function =>
          rcases Option.ite_none_right_eq_some.mp found with ⟨begins, found⟩
          rcases exists_of_afterCall? found with ⟨piece, whole, _, again⟩
          cases List.append_cancel_right whole
          refine ⟨other, ?_, length⟩
          unfold Pattern.after?
          simp only [begins, if_true, again]

end SchemaDdl.Script
