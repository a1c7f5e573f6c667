import SchemaDdl.Proofs.Text.Splitting

/-!
# Lines

A text is its lines with a line break between neighbours.
-/

namespace SchemaDdl.Text

/-- The lines of a text; a text without line breaks is one line. -/
def lines (text : List Char) : List (List Char) :=
  pieces (· == '\n') text

def ofLines : List (List Char) → List Char
  | [] => []
  | [line] => line
  | line :: others => line ++ '\n' :: ofLines others

theorem ofLines_cons {line : List Char} {others : List (List Char)} (more : others ≠ []) :
    ofLines (line :: others) = line ++ '\n' :: ofLines others := by
  cases others with
  | nil => exact absurd rfl more
  | cons => rfl

theorem lines_ne_nil (text : List Char) : lines text ≠ [] := by
  unfold lines
  induction text with
  | nil => exact List.cons_ne_nil _ _
  | cons char text _ =>
      rw [pieces]
      split
      · exact List.cons_ne_nil _ _
      · split <;> exact List.cons_ne_nil _ _

theorem lines_newline (text : List Char) : lines ('\n' :: text) = [] :: lines text :=
  rfl

theorem lines_cons {char : Char} (other : char ≠ '\n') {text line : List Char}
    {others : List (List Char)} (found : lines text = line :: others) :
    lines (char :: text) = (char :: line) :: others := by
  have same : (char == '\n') = false := beq_false_of_ne other
  unfold lines at found ⊢
  rw [pieces, same, found]
  rfl

theorem exists_lines (text : List Char) : ∃ line others, lines text = line :: others :=
  List.exists_cons_of_ne_nil (lines_ne_nil text)

theorem lines_append_newline (text rest : List Char) :
    lines (text ++ '\n' :: rest) = lines text ++ lines rest := by
  induction text with
  | nil => rfl
  | cons char text induction =>
      rcases Decidable.em (char = '\n') with rfl | other
      · rw [List.cons_append, lines_newline, lines_newline, induction, List.cons_append]
      · rcases exists_lines text with ⟨line, others, found⟩
        rw [found] at induction
        rw [List.cons_append, lines_cons other induction, lines_cons other found]
        rfl

theorem lines_of_not_mem {text : List Char} (single : '\n' ∉ text) : lines text = [text] := by
  induction text with
  | nil => rfl
  | cons char text induction =>
      rw [List.mem_cons, not_or] at single
      exact lines_cons (Ne.symm single.1) (induction single.2)

theorem ofLines_lines (text : List Char) : ofLines (lines text) = text := by
  induction text with
  | nil => rfl
  | cons char text induction =>
      rcases exists_lines text with ⟨line, others, found⟩
      rcases Decidable.em (char = '\n') with rfl | other
      · rw [lines_newline, ofLines_cons (lines_ne_nil text), induction]
        rfl
      · rw [found] at induction
        rw [lines_cons other found, ← induction]
        cases others <;> rfl

theorem not_mem_of_mem_lines {text line : List Char} (among : line ∈ lines text) : '\n' ∉ line := by
  induction text generalizing line with
  | nil =>
      rw [List.mem_singleton.mp among]
      exact List.not_mem_nil
  | cons char text induction =>
      rcases exists_lines text with ⟨first, others, found⟩
      rcases Decidable.em (char = '\n') with rfl | other
      · rw [lines_newline] at among
        rcases List.mem_cons.mp among with rfl | among
        · exact List.not_mem_nil
        · exact induction among
      · rw [lines_cons other found] at among
        rw [found] at induction
        rcases List.mem_cons.mp among with rfl | among
        · intro held
          rcases List.mem_cons.mp held with equal | held
          · exact other equal.symm
          · exact induction List.mem_cons_self held
        · exact induction (List.mem_cons_of_mem _ among)

theorem ofLines_concat_nil {lines : List (List Char)} (nonempty : lines ≠ []) :
    ofLines (lines ++ [[]]) = ofLines lines ++ ['\n'] := by
  induction lines with
  | nil => exact absurd rfl nonempty
  | cons line others induction =>
      cases others with
      | nil => rfl
      | cons next others =>
          rw [List.cons_append, ofLines_cons (by simp), ofLines_cons (by simp),
            induction (by simp), List.append_assoc, List.cons_append]

theorem trimEnd_concat {text : List Char} {char : Char} (solid : isBlank char = false) :
    trimEnd (text ++ [char]) = text ++ [char] := by
  unfold trimEnd dropTail
  rw [List.reverse_concat, List.dropWhile_cons_of_neg (by rw [solid]; exact Bool.false_ne_true),
    List.reverse_cons, List.reverse_reverse]

end SchemaDdl.Text
