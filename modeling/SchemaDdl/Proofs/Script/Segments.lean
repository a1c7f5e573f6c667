import SchemaDdl.Proofs.Text.Lines
import SchemaDdl.Script.Adaptation

/-!
# Scripts cut into segments

What a pattern leaves of a script. A pattern for statements looks at the beginnings of lines only,
so that a line at whose beginning it finds nothing is kept as a whole.
-/

namespace SchemaDdl.Script

open Text

def Rule.run (rule : Rule) (previous : Option Char) (text : List Char) : List Char :=
  (segments rule.pattern previous text).flatMap (Segment.replaced rule.replacement.toList)

theorem segments_nil (pattern : Pattern) (previous : Option Char) :
    segments pattern previous [] = [] := by
  rw [segments]

theorem segments_of_none {pattern : Pattern} {previous : Option Char} {char : Char}
    {text : List Char} (missing : pattern.after? previous (char :: text) = none) :
    segments pattern previous (char :: text) =
      .kept char :: segments pattern (some char) text := by
  rw [segments, Pattern.matchLength?, missing]
  rfl

theorem segments_of_after {pattern : Pattern} {previous : Option Char} {found rest : List Char}
    (nonempty : found ≠ []) (after : pattern.after? previous (found ++ rest) = some rest) :
    segments pattern previous (found ++ rest) =
      .found found :: segments pattern found.getLast? rest := by
  cases found with
  | nil => exact absurd rfl nonempty
  | cons char found =>
      have length : (char :: (found ++ rest)).length - rest.length = found.length + 1 := by
        rw [List.length_cons, List.length_append]
        omega
      rw [List.cons_append] at after ⊢
      rw [segments, Pattern.matchLength?, after, Option.map_some, length]
      simp only [List.take_left', List.drop_left']

/-! ## Patterns for statements -/

def Pattern.isAnchored : Pattern → Bool
  | .statement .. | .sentence _ | .definition _ => true
  | .phrase _ | .call _ => false

theorem Pattern.after?_of_isAnchored {pattern : Pattern} (anchored : pattern.isAnchored = true)
    (previous : Option Char) (text : List Char) :
    pattern.after? previous text =
      if lineBegins previous then pattern.after? none text else none := by
  cases pattern with
  | phrase words => cases anchored
  | call function => cases anchored
  | statement heads demand => rfl
  | sentence phrases => rfl
  | definition heads => rfl

theorem Pattern.after?_inside {pattern : Pattern} (anchored : pattern.isAnchored = true)
    {previous : Char} (inside : previous ≠ '\n') (text : List Char) :
    pattern.after? (some previous) text = none := by
  rw [pattern.after?_of_isAnchored anchored]
  exact if_neg fun begins => inside (eq_of_beq begins)

theorem segments_inside {pattern : Pattern} (anchored : pattern.isAnchored = true)
    {previous : Char} (inside : previous ≠ '\n') {line : List Char} (single : '\n' ∉ line)
    (rest : List Char) :
    ∃ last, last ≠ '\n' ∧ segments pattern (some previous) (line ++ rest) =
      line.map .kept ++ segments pattern (some last) rest := by
  induction line generalizing previous with
  | nil => exact ⟨previous, inside, rfl⟩
  | cons char line induction =>
      rw [List.mem_cons, not_or] at single
      rcases induction (Ne.symm single.1) single.2 with ⟨last, other, equal⟩
      refine ⟨last, other, ?_⟩
      rw [List.cons_append, segments_of_none (pattern.after?_inside anchored inside _), equal]
      rfl

def Pattern.IsSilentOn (pattern : Pattern) (line : List Char) : Prop :=
  ∀ rest : List Char, rest.head?.all (· == '\n') = true → pattern.after? none (line ++ rest) = none

theorem segments_last_line {pattern : Pattern} (anchored : pattern.isAnchored = true)
    {previous : Option Char} (begins : lineBegins previous = true) {line : List Char}
    (single : '\n' ∉ line) (silent : pattern.IsSilentOn line) :
    segments pattern previous line = line.map .kept := by
  cases line with
  | nil => exact segments_nil pattern previous
  | cons char line =>
      rw [List.mem_cons, not_or] at single
      have missing : pattern.after? previous (char :: line) = none := by
        have missing := silent [] rfl
        rw [List.append_nil] at missing
        rw [pattern.after?_of_isAnchored anchored, if_pos begins, missing]
      rcases segments_inside anchored (Ne.symm single.1) single.2 [] with ⟨last, _, equal⟩
      rw [List.append_nil] at equal
      rw [segments_of_none missing, equal, segments_nil, List.append_nil]
      rfl

theorem segments_line {pattern : Pattern} (anchored : pattern.isAnchored = true)
    {previous : Option Char} (begins : lineBegins previous = true) {line : List Char}
    (single : '\n' ∉ line) (silent : pattern.IsSilentOn line) (rest : List Char) :
    segments pattern previous (line ++ '\n' :: rest) =
      (line ++ ['\n']).map .kept ++ segments pattern (some '\n') rest := by
  have missing : pattern.after? previous (line ++ '\n' :: rest) = none := by
    rw [pattern.after?_of_isAnchored anchored, if_pos begins]
    exact silent ('\n' :: rest) rfl
  cases line with
  | nil => exact segments_of_none missing
  | cons char line =>
      rw [List.mem_cons, not_or] at single
      rcases segments_inside anchored (Ne.symm single.1) single.2 ('\n' :: rest) with
        ⟨last, other, equal⟩
      rw [List.cons_append] at missing ⊢
      rw [segments_of_none missing, equal,
        segments_of_none (pattern.after?_inside anchored other _)]
      simp

theorem segments_ofLines {pattern : Pattern} (anchored : pattern.isAnchored = true)
    {previous : Option Char} (begins : lineBegins previous = true) {lines : List (List Char)}
    (single : ∀ line ∈ lines, '\n' ∉ line)
    (silent : ∀ line ∈ lines, pattern.IsSilentOn line) :
    segments pattern previous (ofLines lines) = (ofLines lines).map .kept := by
  induction lines generalizing previous with
  | nil => exact segments_nil pattern previous
  | cons line others induction =>
      have first := single line List.mem_cons_self
      have quiet := silent line List.mem_cons_self
      cases others with
      | nil => exact segments_last_line anchored begins first quiet
      | cons next others =>
          have rest := @induction (some '\n') rfl
            (fun line among => single line (List.mem_cons_of_mem _ among))
            (fun line among => silent line (List.mem_cons_of_mem _ among))
          rw [ofLines_cons (List.cons_ne_nil _ _), segments_line anchored begins first quiet, rest]
          simp

/-! ## What rules leave -/

theorem flatMap_replaced_map_kept (replacement text : List Char) :
    (text.map Segment.kept).flatMap (Segment.replaced replacement) = text := by
  induction text with
  | nil => rfl
  | cons char text induction =>
      rw [List.map_cons, List.flatMap_cons, induction]
      rfl

theorem Rule.run_found {rule : Rule} {previous : Option Char} {found rest : List Char}
    (nonempty : found ≠ []) (after : rule.pattern.after? previous (found ++ rest) = some rest) :
    rule.run previous (found ++ rest) =
      rule.replacement.toList ++ rule.run found.getLast? rest := by
  rw [Rule.run, segments_of_after nonempty after]
  rfl

theorem Rule.run_line {rule : Rule} (anchored : rule.pattern.isAnchored = true)
    {previous : Option Char} (begins : lineBegins previous = true) {line : List Char}
    (single : '\n' ∉ line) (silent : rule.pattern.IsSilentOn line) (rest : List Char) :
    rule.run previous (line ++ '\n' :: rest) = line ++ '\n' :: rule.run (some '\n') rest := by
  rw [Rule.run, segments_line anchored begins single silent, List.flatMap_append,
    flatMap_replaced_map_kept, List.append_assoc]
  rfl

theorem Rule.run_ofLines {rule : Rule} (anchored : rule.pattern.isAnchored = true)
    {previous : Option Char} (begins : lineBegins previous = true) {lines : List (List Char)}
    (single : ∀ line ∈ lines, '\n' ∉ line)
    (silent : ∀ line ∈ lines, rule.pattern.IsSilentOn line) :
    rule.run previous (ofLines lines) = ofLines lines := by
  rw [Rule.run, segments_ofLines anchored begins single silent, flatMap_replaced_map_kept]

theorem flatMap_text_segments (pattern : Pattern) (previous : Option Char) (text : List Char) :
    (segments pattern previous text).flatMap Segment.text = text := by
  fun_induction segments pattern previous text with
  | case1 => rfl
  | case2 previous char text length matched found induction =>
      rw [List.flatMap_cons, induction, Segment.text, List.cons_append, List.take_append_drop]
  | case3 previous char text unmatched induction =>
      rw [List.flatMap_cons, induction]
      rfl

theorem Rule.apply_of_findings_eq_nil {rule : Rule} {script : List Char}
    (none : rule.findings script = []) : rule.apply script = script := by
  rw [Rule.findings, List.filterMap_eq_nil_iff] at none
  conv => rhs; rw [← flatMap_text_segments rule.pattern Option.none script]
  rw [Rule.apply, List.flatMap_def, List.flatMap_def]
  apply congrArg List.flatten
  apply List.map_congr_left
  intro segment member
  cases segment with
  | kept char => rfl
  | found text => cases none _ member

theorem Adaptation.apply_eq_or (adaptation : Adaptation) (rule : Rule) :
    rule.findings adaptation.script = [] ∧ adaptation.apply rule = adaptation ∨
      rule.findings adaptation.script ≠ [] ∧ adaptation.apply rule =
        ⟨rule.apply adaptation.script,
          adaptation.changes ++ [⟨rule, rule.findings adaptation.script⟩]⟩ := by
  unfold Adaptation.apply
  cases found : rule.findings adaptation.script with
  | nil => exact .inl ⟨rfl, rfl⟩
  | cons piece pieces => exact .inr ⟨List.cons_ne_nil _ _, rfl⟩

theorem Adaptation.script_apply (adaptation : Adaptation) (rule : Rule) :
    (adaptation.apply rule).script = rule.apply adaptation.script := by
  unfold Adaptation.apply
  split
  · rename_i none
    exact (Rule.apply_of_findings_eq_nil none).symm
  · rfl

theorem Adaptation.changes_apply (adaptation : Adaptation) (rule : Rule) :
    (adaptation.apply rule).changes = adaptation.changes ++
      if rule.findings adaptation.script = [] then []
      else [⟨rule, rule.findings adaptation.script⟩] := by
  rcases adaptation.apply_eq_or rule with ⟨none, same⟩ | ⟨found, recorded⟩
  · rw [same, if_pos none, List.append_nil]
  · rw [recorded, if_neg found]

end SchemaDdl.Script
