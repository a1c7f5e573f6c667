import Mathlib.Logic.Function.Iterate
import SchemaDdl.Proofs.Script.Settled
import SchemaDdl.Proofs.Text.Size

/-!
# Scripts grow shorter

Every piece that a rule finds is longer than what the rule writes instead, so that a rule that
leaves a record leaves a shorter script. A script is therefore another one than before exactly when
there is a record, and adapting it again and again comes to an end.
-/

namespace SchemaDdl.Text

def phraseLength : Phrase → Nat
  | [] => 0
  | [word] => word.length
  | word :: words => word.length + 1 + phraseLength words

variable {text rest : List Char}

theorem length_of_afterLetters? {letters : List Char}
    (found : afterLetters? letters text = some rest) :
    text.length = letters.length + rest.length := by
  rcases Script.exists_of_afterLetters? found with ⟨piece, rfl, same, _⟩
  have long : piece.length = letters.length := by
    simpa using congrArg List.length same
  rw [List.length_append, long]

theorem length_of_afterBlanks? (found : afterBlanks? text = some rest) :
    rest.length + 1 ≤ text.length := by
  cases text with
  | nil => cases found
  | cons char text =>
      rw [afterBlanks?] at found
      rcases Option.ite_none_right_eq_some.mp found with ⟨_, found⟩
      cases found
      have := (List.dropWhile_suffix isBlank (l := text)).length_le
      rw [List.length_cons]
      omega

theorem length_of_afterPhrase? {phrase : Phrase} (found : afterPhrase? phrase text = some rest) :
    rest.length + phraseLength phrase ≤ text.length := by
  induction phrase generalizing text with
  | nil =>
      cases found
      exact Nat.le_refl _
  | cons word words induction =>
      cases words with
      | nil =>
          have := length_of_afterLetters? found
          rw [String.length_toList] at this
          rw [phraseLength]
          omega
      | cons next words =>
          rcases Option.bind_eq_some_iff.mp found with ⟨others, blanks, found⟩
          rcases Option.bind_eq_some_iff.mp blanks with ⟨between, letters, blanks⟩
          have first := length_of_afterLetters? letters
          have gap := length_of_afterBlanks? blanks
          have last := induction found
          rw [String.length_toList] at first
          rw [phraseLength]
          · omega
          · exact List.cons_ne_nil _ _

end SchemaDdl.Text

namespace SchemaDdl.Script

open Text

/-! ## How long pieces are -/

def Pattern.leastLength : Pattern → Nat
  | .statement .. | .sentence _ | .definition _ => 1
  | .phrase words => phraseLength words
  | .call function => function.length + 2

variable {pattern : Pattern} {previous : Option Char} {text rest : List Char}

theorem length_of_afterCall? {function : String} (found : afterCall? function text = some rest) :
    rest.length + (function.length + 2) ≤ text.length := by
  unfold afterCall? at found
  split at found
  · rename_i arguments opened
    split at found
    · rename_i closed
      cases found
      rcases Option.map_eq_some_iff.mp opened with ⟨after, name, opened⟩
      have name := length_of_afterLetters? name
      have gap := (List.dropWhile_suffix isBlank (l := after)).length_le
      have inner := (List.dropWhile_suffix isBlank (l := arguments)).length_le
      unfold trimStart at opened closed
      rw [opened, List.length_cons] at gap
      rw [closed, List.length_cons] at inner
      rw [String.length_toList] at name
      omega
    · cases found
  · cases found

theorem Pattern.length_of_after? (worded : pattern.isWorded = true)
    (found : pattern.after? previous text = some rest) :
    rest.length + pattern.leastLength ≤ text.length := by
  cases anchored : pattern.isAnchored with
  | true =>
      have least : pattern.leastLength = 1 := by
        cases pattern with
        | statement heads demand => rfl
        | sentence phrases => rfl
        | definition heads => rfl
        | phrase words => cases anchored
        | call function => cases anchored
      rcases Pattern.readsStatement anchored worded found with ⟨body, tail, rfl, lineEnd, _⟩
      have short := (suffix_afterLineEnd tail).length_le
      rw [lineEnd, least, List.length_append, List.length_cons]
      omega
  | false =>
      cases pattern with
      | statement heads demand => cases anchored
      | sentence phrases => cases anchored
      | definition heads => cases anchored
      | phrase words =>
          rcases Option.ite_none_right_eq_some.mp found with ⟨_, found⟩
          exact length_of_afterPhrase? (Option.filter_eq_some_iff.mp found).1
      | call function =>
          rcases Option.ite_none_right_eq_some.mp found with ⟨_, found⟩
          exact length_of_afterCall? found

theorem Pattern.after?_of_unmatched (worded : pattern.isWorded = true)
    (solid : 0 < pattern.leastLength)
    (unmatched : ∀ length, pattern.matchLength? previous text = some (length + 1) → False) :
    pattern.after? previous text = none := by
  rw [Option.eq_none_iff_forall_ne_some]
  intro rest after
  have least := Pattern.length_of_after? worded after
  apply unmatched (text.length - rest.length - 1)
  rw [Pattern.matchLength?, after, Option.map_some]
  congr 1
  omega

theorem replacement_lt_leastLength {dialect : Dialect} {rule : Rule}
    (among : rule ∈ rules dialect) :
    rule.replacement.length < rule.pattern.leastLength ∧
      ∀ char ∈ rule.replacement.toList, char.utf8Size = 1 := by
  have each : ∀ dialect : Dialect, (rules dialect).all (fun rule =>
      decide (rule.replacement.length < rule.pattern.leastLength) &&
        rule.replacement.toList.all (·.utf8Size == 1)) = true := by
    intro dialect
    cases dialect <;> decide +kernel
  simpa using List.all_eq_true.mp (each dialect) rule among

/-! ## What a rule leaves -/

variable {measure : Char → Nat}

/-- Each piece that is found makes the script shorter by one character at least, in any measure of
characters in which what the rule writes counts only once. -/
theorem sizeBy_run {dialect : Dialect} {rule : Rule} (among : rule ∈ rules dialect)
    (positive : ∀ char, 1 ≤ measure char)
    (single : ∀ char ∈ rule.replacement.toList, measure char = 1)
    (previous : Option Char) (text : List Char) :
    sizeBy measure (rule.run previous text)
        + ((segments rule.pattern previous text).filterMap Segment.found?).length ≤
      sizeBy measure text := by
  unfold Rule.run
  fun_induction segments rule.pattern previous text with
  | case1 => exact Nat.le_refl _
  | case2 previous char text length matched found induction =>
      rcases Option.map_eq_some_iff.mp matched with ⟨rest, after, long⟩
      have least := Pattern.length_of_after? (isWorded_of_mem_rules among) after
      have less := (replacement_lt_leastLength among).1
      have written : sizeBy measure rule.replacement.toList = rule.replacement.length := by
        rw [sizeBy_eq_length single, String.length_toList]
      have held : found.length ≤ sizeBy measure found := length_le_sizeBy positive found
      have whole : sizeBy measure (char :: text) =
          sizeBy measure found + sizeBy measure (text.drop length) := by
        rw [← sizeBy_append, List.cons_append, List.take_append_drop]
      have taken : found.length = length + 1 := by
        rw [List.length_cons] at long ⊢
        rw [List.length_take]
        omega
      rw [List.flatMap_cons, sizeBy_append, whole]
      simp only [List.filterMap_cons, Segment.found?, Segment.replaced, List.length_cons]
      omega
  | case3 previous char text unmatched induction =>
      rw [List.flatMap_cons, sizeBy_append, sizeBy_cons]
      simp only [List.filterMap_cons, Segment.found?, Segment.replaced, sizeBy_cons]
      have none : sizeBy measure [] = 0 := rfl
      omega

/-! ## Adaptations -/

variable {dialect : Dialect} {rule : Rule}

/-- Whether a rule that finds something makes each script shorter, in characters and in bytes. -/
def Rule.Shortens (rule : Rule) : Prop :=
  ∀ script : List Char, rule.findings script ≠ [] →
    (rule.apply script).length < script.length ∧ byteSize (rule.apply script) < byteSize script

theorem Rule.shortens (among : rule ∈ rules dialect) : rule.Shortens := by
  intro script found
  have some : 0 < (rule.findings script).length := List.length_pos_iff.mpr found
  have single := (replacement_lt_leastLength among).2
  have one : ∀ char : Char, 1 ≤ (fun _ : Char => 1) char := fun _ => Nat.le_refl 1
  have characters := sizeBy_run among one (fun _ _ => rfl) none script
  have bytes := sizeBy_run among Char.utf8Size_pos single none script
  rw [sizeBy_one, sizeBy_one] at characters
  unfold Rule.findings at some
  unfold Rule.apply
  unfold byteSize
  unfold Rule.run at characters bytes
  omega

theorem length_foldl_apply {rules : List Rule} (shorten : ∀ rule ∈ rules, rule.Shortens)
    (adaptation : Adaptation) :
    (rules.foldl Adaptation.apply adaptation).script.length
        + (rules.foldl Adaptation.apply adaptation).changes.length ≤
      adaptation.script.length + adaptation.changes.length ∧
    byteSize (rules.foldl Adaptation.apply adaptation).script
        + (rules.foldl Adaptation.apply adaptation).changes.length ≤
      byteSize adaptation.script + adaptation.changes.length := by
  induction rules generalizing adaptation with
  | nil => exact ⟨Nat.le_refl _, Nat.le_refl _⟩
  | cons rule rules induction =>
      have later := induction (fun rule among => shorten rule (List.mem_cons_of_mem _ among))
        (adaptation.apply rule)
      rw [List.foldl_cons]
      rcases adaptation.apply_eq_or rule with ⟨_, same⟩ | ⟨found, recorded⟩
      · rw [same] at later ⊢
        exact later
      · have shorter := shorten rule List.mem_cons_self adaptation.script found
        rw [recorded] at later ⊢
        simp only [List.length_append, List.length_singleton] at later ⊢
        omega

theorem length_changes_le (rules : List Rule) (adaptation : Adaptation) :
    adaptation.changes.length ≤ (rules.foldl Adaptation.apply adaptation).changes.length := by
  induction rules generalizing adaptation with
  | nil => exact Nat.le_refl _
  | cons rule rules induction =>
      have later := induction (adaptation.apply rule)
      rw [List.foldl_cons]
      rcases adaptation.apply_eq_or rule with ⟨_, kept⟩ | ⟨_, recorded⟩
      · rw [kept] at later ⊢
        exact later
      · rw [recorded] at later ⊢
        simp only [List.length_append, List.length_singleton] at later
        omega

theorem silent_of_changes {rules : List Rule} {adaptation : Adaptation}
    (same : (rules.foldl Adaptation.apply adaptation).changes.length ≤ adaptation.changes.length) :
    ∀ rule ∈ rules, rule.findings adaptation.script = [] := by
  induction rules with
  | nil => exact fun rule among => absurd among List.not_mem_nil
  | cons rule rules induction =>
      rw [List.foldl_cons] at same
      rcases adaptation.apply_eq_or rule with ⟨none, kept⟩ | ⟨_, recorded⟩
      · rw [kept] at same
        exact List.forall_mem_cons.mpr ⟨none, induction same⟩
      · have more := length_changes_le rules (adaptation.apply rule)
        rw [recorded] at same more
        simp only [List.length_append, List.length_singleton] at more
        omega

/-- What adapting a script makes of its length. -/
structure Shrinking (dialect : Dialect) (script : String) : Prop where
  /-- A rule that leaves a record makes the script at hand shorter. -/
  recorded : ∀ rule ∈ rules dialect, ∀ adaptation : Adaptation,
    (adaptation.apply rule).changes ≠ adaptation.changes →
      (adaptation.apply rule).script.length < adaptation.script.length ∧
        byteSize (adaptation.apply rule).script < byteSize adaptation.script
  modified : (adapt dialect script).differsFrom script = true ↔ (adapt dialect script).changes ≠ []
  length_le : (adapt dialect script).text.length ≤ script.length
  byteLength_le : byteLength (adapt dialect script).text ≤ byteLength script
  unmodified : (adapt dialect script).text.length = script.length ∨
    byteLength (adapt dialect script).text = byteLength script →
      (adapt dialect script).differsFrom script = false
  /-- One round after another, at most as many as the script has characters, the script is one that
  is left alone. -/
  settles : ∃ rounds ≤ script.length,
    Settled dialect ((fun text => (adapt dialect text).text)^[rounds] script)

theorem length_adapt (dialect : Dialect) (script : String) :
    (adapt dialect script).text.length + (adapt dialect script).changes.length ≤ script.length ∧
      byteLength (adapt dialect script).text + (adapt dialect script).changes.length ≤
        byteLength script := by
  have shorten : ∀ rule ∈ rules dialect, rule.Shortens := fun rule among => Rule.shortens among
  have both := length_foldl_apply shorten { script := script.toList }
  rw [byteSize_toList, byteSize_eq_byteLength, String.length_toList] at both
  rw [Adaptation.text, String.length_ofList]
  exact both

theorem settled_of_changes {script : String} (none : (adapt dialect script).changes = []) :
    Settled dialect script := by
  have same : ((rules dialect).foldl Adaptation.apply { script := script.toList }).changes.length ≤
      0 :=
    Nat.le_of_eq (congrArg List.length none)
  exact settled_of_silent (silent_of_changes same)

theorem adapt_settles (dialect : Dialect) (script : String) :
    ∃ rounds ≤ script.length,
      Settled dialect ((fun text => (adapt dialect text).text)^[rounds] script) := by
  generalize long : script.length = length
  induction length using Nat.strongRecOn generalizing script with
  | ind length induction =>
      rcases Decidable.em ((adapt dialect script).changes = []) with none | some
      · exact ⟨0, Nat.zero_le _, settled_of_changes none⟩
      · have shorter := (length_adapt dialect script).1
        have records := List.length_pos_iff.mpr some
        rcases induction _ (by omega) (adapt dialect script).text rfl with ⟨rounds, few, settled⟩
        exact ⟨rounds + 1, by omega, settled⟩

/-- Every record makes the script shorter. -/
theorem adapt_shrinking (dialect : Dialect) (script : String) : Shrinking dialect script := by
  have short := length_adapt dialect script
  have same : (adapt dialect script).changes = [] →
      (adapt dialect script).differsFrom script = false :=
    fun none => (settled_of_changes none).unmodified
  have other : (adapt dialect script).changes ≠ [] →
      (adapt dialect script).text.length < script.length ∧
        byteLength (adapt dialect script).text < byteLength script := by
    intro some
    have records := List.length_pos_iff.mpr some
    omega
  constructor
  case recorded =>
    intro rule among adaptation changed
    rcases adaptation.apply_eq_or rule with ⟨_, kept⟩ | ⟨found, recorded⟩
    · rw [kept] at changed
      exact absurd rfl changed
    · rw [recorded]
      exact Rule.shortens among adaptation.script found
  case modified =>
    constructor
    · intro differs none
      rw [same none] at differs
      cases differs
    · intro some
      refine bne_iff_ne.mpr fun equal => ?_
      have shorter := (other some).1
      rw [equal] at shorter
      exact Nat.lt_irrefl _ shorter
  case length_le => omega
  case byteLength_le => omega
  case unmodified =>
    intro long
    refine same (Classical.byContradiction fun some => ?_)
    have shorter := other some
    omega
  case settles => exact adapt_settles dialect script

end SchemaDdl.Script
