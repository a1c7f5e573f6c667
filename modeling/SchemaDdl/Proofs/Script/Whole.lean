import Mathlib.Logic.Relation
import SchemaDdl.Proofs.Script.Places
import SchemaDdl.Proofs.Script.Rewording

/-!
# Scripts adapted by whole statements

Rules look at lines and at the next semicolon, not at the lexemes of a script. Where what a removing
rule finds begins and ends between statements, and what a rewording rule finds begins outside of
quotes, an adapted script has statements of the script, with other wordings at most, and no others.
-/

namespace SchemaDdl.Script

open Text

/-! ## Whole pieces -/

def endsOutside (nests : Bool) (text : List Char) : Bool :=
  (lexemes? nests text).any (!endsInComment ·)

def endsBetween (nests : Bool) (text : List Char) : Bool :=
  (lexemes? nests text).any fun lexemes => !endsInComment lexemes && isBetween lexemes

/-- Whether a piece that a pattern finds behind a text is whole: for statements, nothing but whole
statements with their semicolons; for the other patterns, something that begins outside of quotes.
-/
def Pattern.isWhole (nests : Bool) (pattern : Pattern) (front piece : List Char) : Bool :=
  if pattern.isAnchored then endsBetween nests front && endsBetween nests (front ++ piece)
  else endsOutside nests front

def Pattern.allWhole (nests : Bool) (pattern : Pattern) : (front : List Char) → List Segment → Bool
  | _, [] => true
  | front, .kept char :: segments => pattern.allWhole nests (front ++ [char]) segments
  | front, .found piece :: segments =>
      pattern.isWhole nests front piece && pattern.allWhole nests (front ++ piece) segments

def Rule.findsWhole (nests : Bool) (rule : Rule) (script : List Char) : Bool :=
  rule.pattern.allWhole nests [] (segments rule.pattern none script)

/-- Whether rules find whole pieces only, each in the script as the rules before it left it. -/
def findWhole (nests : Bool) : List Rule → List Char → Bool
  | [], _ => true
  | rule :: rules, script =>
      rule.findsWhole nests script && findWhole nests rules (rule.apply script)

/-! ## Texts that are read on their own -/

def Reads (nests : Bool) (text : List Char) (lexemes : List Lexeme) : Prop :=
  ∀ rest : List Char, lexemes? nests (text ++ rest) = (lexemes? nests rest).map (lexemes ++ ·)

variable {nests : Bool} {text more rest : List Char} {lexemes others : List Lexeme}

namespace Reads

theorem nil (nests : Bool) : Reads nests [] [] := by
  intro rest
  rw [List.nil_append]
  cases lexemes? nests rest <;> rfl

theorem append (first : Reads nests text lexemes) (second : Reads nests more others) :
    Reads nests (text ++ more) (lexemes ++ others) := by
  intro rest
  rw [List.append_assoc, first, second, Option.map_map]
  congr 1
  funext behind
  exact (List.append_assoc ..).symm

theorem of_isLoose (read : lexemes? nests text = some lexemes)
    (outside : endsInComment lexemes = false) (loose : text.getLast?.all isLoose = true) :
    Reads nests text lexemes :=
  fun _ => lexemes?_append read outside (.inl loose)

theorem exists_of_append (reads : Reads nests text lexemes)
    (closed : lexemes? nests (text ++ rest) = some others) :
    ∃ behind, lexemes? nests rest = some behind ∧ others = lexemes ++ behind := by
  rw [reads] at closed
  rcases Option.map_eq_some_iff.mp closed with ⟨behind, read, equal⟩
  exact ⟨behind, read, equal.symm⟩

end Reads

theorem endsInComment_of_append (outside : endsInComment (lexemes ++ others) = false) :
    endsInComment others = false := by
  induction lexemes with
  | nil => exact outside
  | cons lexeme lexemes induction => exact induction (endsInComment_of_cons outside)

/-! ## Rules that keep a relation -/

section Related

variable {Related : (before after : List Lexeme) → Prop} {rule : Rule}

def ReadAs (nests : Bool) (Related : (before after : List Lexeme) → Prop)
    (old new : List Char) : Prop :=
  ∃ before after, Reads nests old before ∧ Reads nests new after ∧ Related before after

/-- A rule keeps a relation when the texts up to a whole piece that it finds are related again with
the piece on one side and the replacement on the other. -/
def Rule.Keeps (nests : Bool) (rule : Rule) (Related : (before after : List Lexeme) → Prop) :
    Prop :=
  ∀ ⦃seam new run piece rest : List Char⦄, ReadAs nests Related seam new → piece ≠ [] →
    rule.pattern.after? (seam ++ run).getLast? (piece ++ rest) = some rest →
    rule.pattern.isWhole nests (seam ++ run) piece = true →
    ReadAs nests Related (seam ++ (run ++ piece)) (new ++ (run ++ rule.replacement.toList))

/-- What a rule makes of a script is related to the script up to the last piece, and the same behind
it. The induction runs over the segments; `seam` is what stands in front of the last piece, with the
piece, and `run` what was kept since. -/
theorem Rule.Keeps.segments (keeps : rule.Keeps nests Related)
    (worded : rule.pattern.isWorded = true) {previous : Option Char} {seam new run : List Char}
    (seams : ReadAs nests Related seam new) (here : (seam ++ run).getLast? = previous)
    (whole : rule.pattern.allWhole nests (seam ++ run) (segments rule.pattern previous text) = true)
    (closed : lexemes? nests (seam ++ (run ++ text)) = some lexemes) :
    ∃ before after behind, Related before after ∧ lexemes = before ++ behind ∧
      lexemes? nests (new ++ (run ++ (Script.segments rule.pattern previous text).flatMap
        (Segment.replaced rule.replacement.toList))) = some (after ++ behind) := by
  fun_induction Script.segments rule.pattern previous text generalizing seam new run with
  | case1 =>
      rcases seams with ⟨before, after, old, fresh, related⟩
      rw [List.append_nil] at closed
      rcases old.exists_of_append closed with ⟨behind, read, equal⟩
      refine ⟨before, after, behind, related, equal, ?_⟩
      rw [List.flatMap_nil, List.append_nil, fresh, read]
      rfl
  | case2 previous char text length matched found =>
      rename_i induction
      rcases Bool.and_eq_true_iff.mp whole with ⟨first, others⟩
      have after := Pattern.after?_of_matchLength? worded matched
      have nonempty : found ≠ [] := List.cons_ne_nil _ _
      rw [← here] at after
      have seams := keeps seams nonempty after first
      have last : (seam ++ (run ++ found) ++ []).getLast? = found.getLast? := by
        rw [List.append_nil, ← List.append_assoc, List.getLast?_append_of_ne_nil _ nonempty]
      rw [List.append_assoc] at others
      rw [cons_eq_take_append_drop char text length, ← List.append_assoc run,
        ← List.append_assoc] at closed
      rcases induction seams last (by rwa [List.append_nil]) closed with
        ⟨before, after, behind, related, equal, read⟩
      refine ⟨before, after, behind, related, equal, ?_⟩
      rw [← read, List.flatMap_cons]
      simp only [List.append_assoc, List.nil_append]
      rfl
  | case3 previous char text unmatched =>
      rename_i induction
      have last : (seam ++ (run ++ [char])).getLast? = some char := by
        rw [← List.append_assoc, List.getLast?_concat]
      have whole : rule.pattern.allWhole nests (seam ++ (run ++ [char]))
          (Script.segments rule.pattern (some char) text) = true := by
        rw [← List.append_assoc]
        exact whole
      rw [← List.singleton_append, ← List.append_assoc run] at closed
      rcases induction seams last whole closed with ⟨before, after, behind, related, equal, read⟩
      refine ⟨before, after, behind, related, equal, ?_⟩
      rw [← read, List.flatMap_cons, List.append_assoc run]
      rfl

theorem Rule.Keeps.apply (keeps : rule.Keeps nests Related)
    (worded : rule.pattern.isWorded = true) (none : Related [] []) {script : List Char}
    (whole : rule.findsWhole nests script = true)
    (closed : lexemes? nests script = some lexemes) :
    ∃ before after behind, Related before after ∧ lexemes = before ++ behind ∧
      lexemes? nests (rule.apply script) = some (after ++ behind) :=
  keeps.segments worded ⟨[], [], .nil nests, .nil nests, none⟩ rfl whole closed

end Related

/-! ## Rules that remove -/

theorem isLoose_of_isBlank {char : Char} (blank : isBlank char = true) : isLoose char = true :=
  of_isBlank isLoose (by decide +kernel) blank

theorem passes_afterLineEnd (text : List Char) : Passes isBlank text (afterLineEnd text) := by
  have indent : ∀ char, isIndent char = true → isBlank char = true := by
    intro char indent
    rcases Bool.or_eq_true_iff.mp indent with space | tab
    · rw [eq_of_beq space]
      decide
    · rw [eq_of_beq tab]
      decide
  have blanks := (passes_dropWhile isIndent text).mono indent
  unfold afterLineEnd
  split
  · rename_i rest left
    rw [left] at blanks
    exact blanks.trans ⟨['\r', '\n'], rfl, by decide⟩
  · rename_i rest left
    rw [left] at blanks
    exact blanks.trans ⟨['\n'], rfl, by decide⟩
  · exact blanks

theorem getLast?_all_of_forall {test : Char → Bool} (each : ∀ char ∈ text, test char = true) :
    text.getLast?.all test = true := by
  cases last : text.getLast? with
  | none => rfl
  | some char => exact each char (List.mem_of_getLast? last)

theorem Pattern.endsLoose {pattern : Pattern} (anchored : pattern.isAnchored = true)
    (worded : pattern.isWorded = true) {previous : Option Char} {piece : List Char}
    (found : pattern.after? previous (piece ++ rest) = some rest) :
    piece.getLast?.all isLoose = true := by
  rcases Pattern.readsStatement anchored worded found with ⟨body, tail, whole, lineEnd, _⟩
  rcases passes_afterLineEnd tail with ⟨blanks, split, blank⟩
  rw [← lineEnd] at split
  rw [split, ← List.cons_append, ← List.append_assoc] at whole
  rw [List.append_cancel_right whole, List.getLast?_append_of_ne_nil _ (List.cons_ne_nil _ _)]
  apply getLast?_all_of_forall
  intro char among
  rcases List.mem_cons.mp among with rfl | among
  · decide
  · exact isLoose_of_isBlank (List.all_eq_true.mp blank char among)

/-- Both end between statements, and one has some of the statements of the other. -/
structure Thinned (before after : List Lexeme) : Prop where
  oldBetween : isBetween before = true
  newBetween : isBetween after = true
  sublist : (statements after).Sublist (statements before)

theorem Thinned.append {before after : List Lexeme} (thinned : Thinned before after)
    (kept : isBetween lexemes = true) (taken : isBetween others = true) :
    Thinned (before ++ (lexemes ++ others)) (after ++ lexemes) where
  oldBetween := isBetween_append thinned.oldBetween (isBetween_append kept taken)
  newBetween := isBetween_append thinned.newBetween kept
  sublist := by
    rw [statements_append thinned.oldBetween, statements_append thinned.newBetween,
      statements_append kept]
    exact thinned.sublist.append (List.sublist_append_left _ _)

theorem exists_of_endsBetween (ends : endsBetween nests text = true) :
    ∃ lexemes, lexemes? nests text = some lexemes ∧ endsInComment lexemes = false ∧
      isBetween lexemes = true := by
  rcases (Option.any_eq_true _ _).mp ends with ⟨lexemes, read, parts⟩
  rcases Bool.and_eq_true_iff.mp parts with ⟨outside, between⟩
  exact ⟨lexemes, read, by simpa using outside, between⟩

theorem Pattern.runsLoose {pattern : Pattern} (anchored : pattern.isAnchored = true)
    {front run : List Char}
    (found : pattern.after? (front ++ run).getLast? text = some rest) :
    run.getLast?.all isLoose = true := by
  rw [pattern.after?_of_isAnchored anchored] at found
  rcases Option.ite_none_right_eq_some.mp found with ⟨begins, _⟩
  rcases Decidable.em (run = []) with rfl | nonempty
  · rfl
  · rw [List.getLast?_append_of_ne_nil _ nonempty] at begins
    cases last : run.getLast? with
    | none => rfl
    | some char =>
        rw [last] at begins
        rw [eq_of_beq (show (char == '\n') = true from begins)]
        decide

theorem keeps_thinned {rule : Rule} (anchored : rule.pattern.isAnchored = true)
    (worded : rule.pattern.isWorded = true) (removes : rule.replacement.toList = []) :
    rule.Keeps nests Thinned := by
  rintro seam new run piece rest ⟨before, after, old, fresh, thinned⟩ nonempty found whole
  unfold Pattern.isWhole at whole
  rw [if_pos anchored, Bool.and_eq_true] at whole
  rcases exists_of_endsBetween whole.1 with ⟨front, frontRead, frontOutside, frontBetween⟩
  rcases exists_of_endsBetween whole.2 with ⟨all, allRead, allOutside, allBetween⟩
  rcases old.exists_of_append frontRead with ⟨kept, keptRead, rfl⟩
  have runReads := Reads.of_isLoose keptRead (endsInComment_of_append frontOutside)
    (Pattern.runsLoose anchored found)
  rcases (old.append runReads).exists_of_append allRead with ⟨taken, takenRead, rfl⟩
  have pieceReads := Reads.of_isLoose takenRead (endsInComment_of_append allOutside)
    (Pattern.endsLoose anchored worded found)
  refine ⟨before ++ (kept ++ taken), after ++ kept, old.append (runReads.append pieceReads), ?_, ?_⟩
  · rw [removes, List.append_nil]
    exact fresh.append runReads
  · exact thinned.append (isBetween_of_append frontBetween) (isBetween_of_append allBetween)

/-! ## Rules that reword -/

theorem exists_of_endsOutside (ends : endsOutside nests text = true) :
    ∃ lexemes, lexemes? nests text = some lexemes ∧ endsInComment lexemes = false := by
  rcases (Option.any_eq_true _ _).mp ends with ⟨lexemes, read, outside⟩
  exact ⟨lexemes, read, by simpa using outside⟩

theorem Reads.of_isWording (read : lexemes? nests text = some lexemes)
    (outside : endsInComment lexemes = false) (wording : isWording more = true) :
    Reads nests (text ++ more) (lexemes ++ plainly more) := by
  intro rest
  have apart : Apart text (more ++ rest) := .inr (isBarrier_of_isWording wording rest)
  rw [List.append_assoc, lexemes?_append read outside apart,
    lexemes?_plainly (inert_of_isWording wording), Option.map_map]
  congr 1
  funext behind
  exact (List.append_assoc ..).symm

theorem keeps_reworded {dialect : Dialect} {rule : Rule} (among : rule ∈ rules dialect)
    (rewords : rule.pattern.isWording = true) :
    rule.Keeps nests fun before after => Reworded dialect after before := by
  rintro seam new run piece rest ⟨before, after, old, fresh, reworded⟩ _ found whole
  rcases Pattern.isWording_of_after? rewords found with ⟨wording, alone⟩
  unfold Pattern.isWhole at whole
  rw [not_isAnchored_of_isWording rewords] at whole
  rcases exists_of_endsOutside whole with ⟨front, frontRead, outside⟩
  rcases old.exists_of_append frontRead with ⟨kept, keptRead, rfl⟩
  have keptOutside := endsInComment_of_append outside
  have oldReads := Reads.of_isWording keptRead keptOutside wording
  have newReads := Reads.of_isWording keptRead keptOutside (isWording_of_replacement among rewords)
  refine ⟨_, _, old.append oldReads, fresh.append newReads, ?_⟩
  have last : Reworded dialect (plainly rule.replacement.toList) (plainly piece) := by
    have last := Reworded.replace among rewords alone .nil
    rw [List.append_nil, List.append_nil] at last
    exact last
  exact reworded.append ((Reworded.refl dialect kept).append last)

/-! ## Adapted scripts -/

/-- Whether the statements of some lexemes are statements of others, reworded one or several times,
in their order. -/
def Leaves (dialect : Dialect) (new old : List Lexeme) : Prop :=
  List.SublistForall₂ (Relation.ReflTransGen (Reworded dialect)) (statements new) (statements old)

section Adapted

variable {dialect : Dialect} {new old : List Lexeme}

theorem Leaves.of_thinned {before after : List Lexeme} (thinned : Thinned before after)
    (behind : List Lexeme) : Leaves dialect (after ++ behind) (before ++ behind) := by
  unfold Leaves
  rw [statements_append thinned.oldBetween, statements_append thinned.newBetween]
  exact (thinned.sublist.append (List.Sublist.refl _)).sublistForall₂

theorem Leaves.of_reworded (reworded : Reworded dialect new old) : Leaves dialect new old := by
  rw [Leaves, List.sublistForall₂_iff]
  refine ⟨statements old, ?_, List.Sublist.refl _⟩
  exact reworded.statements.imp fun _ _ => Relation.ReflTransGen.single

theorem Leaves.trans {middle : List Lexeme} (first : Leaves dialect new middle)
    (second : Leaves dialect middle old) : Leaves dialect new old :=
  List.SublistForall₂.is_trans.trans _ _ _ first second

theorem Rule.leaves {rule : Rule} {script : List Char} (among : rule ∈ rules dialect)
    (closed : lexemes? nests script = some lexemes)
    (whole : rule.findsWhole nests script = true) :
    ∃ left, lexemes? nests (rule.apply script) = some left ∧ Leaves dialect left lexemes := by
  have worded := isWorded_of_mem_rules among
  rcases removes_or_rewords among with ⟨anchored, removes⟩ | ⟨rewords, _⟩
  · rcases (keeps_thinned anchored worded removes).apply worded ⟨rfl, rfl, .slnil⟩ whole closed with
      ⟨before, after, behind, thinned, rfl, read⟩
    exact ⟨after ++ behind, read, .of_thinned thinned behind⟩
  · rcases (keeps_reworded among rewords).apply worded .nil whole closed with
      ⟨before, after, behind, reworded, rfl, read⟩
    exact ⟨after ++ behind, read, .of_reworded (reworded.append (.refl dialect behind))⟩

theorem leaves_foldl {rules : List Rule} {script : List Char}
    (among : ∀ rule ∈ rules, rule ∈ Script.rules dialect)
    (closed : lexemes? nests script = some lexemes)
    (whole : findWhole nests rules script = true) :
    ∃ left, lexemes? nests (rules.foldl (fun script rule => rule.apply script) script) = some left ∧
      Leaves dialect left lexemes := by
  induction rules generalizing script lexemes with
  | nil => exact ⟨lexemes, closed, .of_reworded (.refl dialect lexemes)⟩
  | cons rule rules induction =>
      rcases Bool.and_eq_true_iff.mp whole with ⟨first, others⟩
      rcases Rule.leaves (among rule List.mem_cons_self) closed first with ⟨middle, read, leaves⟩
      rcases induction (fun rule member => among rule (List.mem_cons_of_mem _ member)) read others
        with ⟨left, read, more⟩
      exact ⟨left, read, more.trans leaves⟩

/-- A closed script in which the rules of a dialect find whole pieces only is closed when it is
adapted, and its statements are then statements that it had before, in their order, each unchanged
but for other wordings outside of quotes. -/
theorem statements_adapt {script : String} (closed : lexemes? nests script.toList = some lexemes)
    (whole : findWhole nests (rules dialect) script.toList = true) :
    ∃ adapted, lexemes? nests (adapt dialect script).script = some adapted ∧
      List.SublistForall₂ (Relation.ReflTransGen (Reworded dialect)) (statements adapted)
        (statements lexemes) := by
  rw [adapt, script_foldl]
  exact leaves_foldl (fun _ member => member) closed whole

def pagesScript : String :=
  "GRANT ALL ON pages TO reader;\n-- ids; here\nCREATE TABLE pages (\n" ++
    "id uuid DEFAULT uuid_generate_v4(), note text DEFAULT 'GRANT;');"

theorem statements_adapt_pages :
    ∃ lexemes adapted, lexemes? true pagesScript.toList = some lexemes ∧
      findWhole true (rules .nile) pagesScript.toList = true ∧
      lexemes? true (adapt .nile pagesScript).script = some adapted ∧
      List.SublistForall₂ (Relation.ReflTransGen (Reworded .nile)) (statements adapted)
        (statements lexemes) := by
  have spelled : pagesScript.toList = _ := toList_ofList_append
  have closed : (lexemes? true pagesScript.toList).isSome = true := by
    rw [spelled]
    decide +kernel
  have whole : findWhole true (rules .nile) pagesScript.toList = true := by
    rw [spelled]
    decide +kernel
  rcases Option.isSome_iff_exists.mp closed with ⟨lexemes, closed⟩
  rcases statements_adapt closed whole with ⟨adapted, read, left⟩
  exact ⟨lexemes, adapted, closed, whole, read, left⟩

theorem Reworded.eq (never : ∀ rule ∈ rules dialect, rule.pattern.isWording = false)
    (reworded : Reworded dialect new old) : new = old := by
  induction reworded with
  | nil => rfl
  | keep lexeme _ induction => rw [induction]
  | replace among rewords =>
      rw [never _ among] at rewords
      cases rewords

theorem sublist_of_leaves (never : ∀ rule ∈ rules dialect, rule.pattern.isWording = false)
    (left : Leaves dialect new old) : (statements new).Sublist (statements old) := by
  rcases List.sublistForall₂_iff.mp left with ⟨kept, same, sublist⟩
  have equal : ∀ new old, Relation.ReflTransGen (Reworded dialect) new old → new = old := by
    intro new old chain
    induction chain with
    | refl => rfl
    | tail _ last induction => exact induction.trans (last.eq never)
  have same : statements new = kept := List.forall₂_eq_eq_eq ▸ same.imp equal
  rw [same]
  exact sublist

def quotedLine : String :=
  "SELECT 'a\nBEGIN;\nb';"

/-- A line within a literal that reads like a statement is taken out of the literal. -/
theorem adapt_cuts_literal :
    ¬ ∀ (nests : Bool) (dialect : Dialect) (script : String) (lexemes : List Lexeme),
      lexemes? nests script.toList = some lexemes →
      ∃ adapted, lexemes? nests (adapt dialect script).script = some adapted ∧
        List.SublistForall₂ (Relation.ReflTransGen (Reworded dialect)) (statements adapted)
          (statements lexemes) := by
  intro all
  have never : ∀ rule ∈ rules .d1, rule.pattern.isWording = false := by decide
  have cut : ((lexemes? true quotedLine.toList).any fun old =>
      (lexemes? true (adapt .d1 quotedLine).script).any fun new =>
        !(statements new).isSublist (statements old)) = true := by
    decide +kernel
  cases closed : lexemes? true quotedLine.toList with
  | none =>
      rw [closed] at cut
      cases cut
  | some lexemes =>
      rcases all true .d1 quotedLine lexemes closed with ⟨adapted, read, left⟩
      rw [closed, Option.any_some, read, Option.any_some,
        List.isSublist_iff_sublist.mpr (sublist_of_leaves never left)] at cut
      cases cut

end Adapted

end SchemaDdl.Script
