import Mathlib.Data.List.Forall2
import SchemaDdl.Proofs.Script.Lexeme

/-!
# Statements of scripts

The lexemes of a script between its semicolons, without the blanks and comments in front of them. A
script is between two statements where nothing but blanks and comments follows the last semicolon,
and what stands behind such a place has statements of its own.
-/

namespace SchemaDdl.Script

open Text

def Lexeme.isGap : Lexeme → Bool
  | .plain char => isBlank char
  | .quoted .lineComment _ | .quoted .blockComment _ => true
  | .quoted _ _ => false

def Lexeme.isEnd (lexeme : Lexeme) : Bool :=
  lexeme == .plain ';'

/-- The lexemes of each statement, in the order of the script. -/
def statements (lexemes : List Lexeme) : List (List Lexeme) :=
  ((lexemes.splitOnP Lexeme.isEnd).map (List.dropWhile Lexeme.isGap)).filter (!List.isEmpty ·)

/-- Whether the last lexeme, blanks and comments apart, ends a statement, if there is one at all. -/
def isBetween (lexemes : List Lexeme) : Bool :=
  (lexemes.filter (!Lexeme.isGap ·)).getLast?.all Lexeme.isEnd

variable {lexeme : Lexeme} {lexemes front rest : List Lexeme}

theorem Lexeme.not_isGap_of_isEnd (ends : lexeme.isEnd = true) : lexeme.isGap = false := by
  rw [eq_of_beq (show (lexeme == .plain ';') = true from ends)]
  decide

theorem Lexeme.not_isEnd_of_isGap (gap : lexeme.isGap = true) : lexeme.isEnd = false := by
  cases ends : lexeme.isEnd with
  | false => rfl
  | true =>
      rw [Lexeme.not_isGap_of_isEnd ends] at gap
      cases gap

/-! ## Statements of parts -/

theorem exists_splitOnP_isEnd (lexemes : List Lexeme) :
    ∃ first others, lexemes.splitOnP Lexeme.isEnd = first :: others :=
  List.exists_cons_of_ne_nil (List.splitOnP_ne_nil _ lexemes)

theorem splitOnP_isEnd_cons (inside : lexeme.isEnd = false) {first : List Lexeme}
    {others : List (List Lexeme)} (split : lexemes.splitOnP Lexeme.isEnd = first :: others) :
    (lexeme :: lexemes).splitOnP Lexeme.isEnd = (lexeme :: first) :: others := by
  rw [List.splitOnP_cons_eq_if_modifyHead, inside, split]
  rfl

theorem statements_gap (gap : lexeme.isGap = true) (rest : List Lexeme) :
    statements (lexeme :: rest) = statements rest := by
  rcases exists_splitOnP_isEnd rest with ⟨first, others, split⟩
  unfold statements
  rw [splitOnP_isEnd_cons (Lexeme.not_isEnd_of_isGap gap) split, split, List.map_cons,
    List.map_cons, List.dropWhile_cons_of_pos gap]

theorem statements_gaps (gaps : ∀ lexeme ∈ front, lexeme.isGap = true) (rest : List Lexeme) :
    statements (front ++ rest) = statements rest := by
  induction front with
  | nil => rfl
  | cons lexeme front induction =>
      rw [List.cons_append, statements_gap (gaps lexeme List.mem_cons_self)]
      exact induction fun lexeme among => gaps lexeme (List.mem_cons_of_mem _ among)

theorem statements_of_gaps (gaps : ∀ lexeme ∈ lexemes, lexeme.isGap = true) :
    statements lexemes = [] := by
  have none := statements_gaps gaps []
  rw [List.append_nil] at none
  rw [none]
  rfl

theorem statements_append_end (ends : lexeme.isEnd = true) (front rest : List Lexeme) :
    statements (front ++ lexeme :: rest) = statements front ++ statements rest := by
  unfold statements
  rw [List.splitOnP_append_cons _ _ ends, List.map_append, List.filter_append]

theorem isBetween_of_append (between : isBetween (front ++ rest) = true) :
    isBetween rest = true := by
  unfold isBetween at between ⊢
  rw [List.filter_append, List.getLast?_append] at between
  cases last : (rest.filter (!Lexeme.isGap ·)).getLast? with
  | none => rfl
  | some lexeme =>
      rw [last] at between
      exact between

theorem isBetween_append (first : isBetween front = true) (second : isBetween rest = true) :
    isBetween (front ++ rest) = true := by
  unfold isBetween at first second ⊢
  rw [List.filter_append, List.getLast?_append]
  cases last : (rest.filter (!Lexeme.isGap ·)).getLast? with
  | none => exact first
  | some lexeme =>
      rw [last] at second
      exact second

theorem exists_of_isBetween (between : isBetween lexemes = true) :
    (∀ lexeme ∈ lexemes, lexeme.isGap = true) ∨
      ∃ front ending gaps, lexemes = front ++ ending :: gaps ∧ ending.isEnd = true ∧
        ∀ lexeme ∈ gaps, lexeme.isGap = true := by
  induction lexemes with
  | nil => exact .inl fun lexeme among => absurd among List.not_mem_nil
  | cons lexeme lexemes induction =>
      have after : isBetween lexemes = true := @isBetween_of_append [lexeme] lexemes between
      rcases induction after with gaps | ⟨front, ending, gaps, rfl, ends, all⟩
      · cases gap : lexeme.isGap with
        | true =>
            left
            intro other among
            rcases List.mem_cons.mp among with rfl | among
            · exact gap
            · exact gaps other among
        | false =>
            right
            refine ⟨[], lexeme, lexemes, rfl, ?_, gaps⟩
            have none : lexemes.filter (!Lexeme.isGap ·) = [] := by
              rw [List.filter_eq_nil_iff]
              intro other among
              simp [gaps other among]
            simpa [isBetween, gap, none] using between
      · exact .inr ⟨lexeme :: front, ending, gaps, rfl, ends, all⟩

theorem statements_append (between : isBetween front = true) (rest : List Lexeme) :
    statements (front ++ rest) = statements front ++ statements rest := by
  rcases exists_of_isBetween between with gaps | ⟨before, ending, gaps, rfl, ends, all⟩
  · rw [statements_gaps gaps, statements_of_gaps gaps, List.nil_append]
  · rw [List.append_assoc, List.cons_append, statements_append_end ends, statements_gaps all,
      statements_append_end ends, statements_of_gaps all, List.append_nil]

end SchemaDdl.Script
