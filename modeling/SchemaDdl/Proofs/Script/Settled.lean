import SchemaDdl.Proofs.Script.Places

/-!
# Scripts that a second pass leaves alone

A second pass over an adapted script finds only what the first one brought about: each piece that a
rule finds then holds a place that is fresh. So a script is settled after one pass unless a rule
finds something where a rule has written, or where a rule took out what stood in front.
-/

namespace SchemaDdl.Script

open Text

/-- A script that is left as it is, without a report, and in which no rule finds anything. -/
structure Settled (dialect : Dialect) (script : String) : Prop where
  text : (adapt dialect script).text = script
  changes : (adapt dialect script).changes = []
  unmodified : (adapt dialect script).differsFrom script = false
  silent : ∀ rule ∈ rules dialect, rule.findings script.toList = []

theorem Adaptation.apply_of_findings_eq_nil {adaptation : Adaptation} {rule : Rule}
    (none : rule.findings adaptation.script = []) : adaptation.apply rule = adaptation := by
  unfold Adaptation.apply
  rw [none]

theorem foldl_apply_of_findings_eq_nil {rules : List Rule} {adaptation : Adaptation}
    (silent : ∀ rule ∈ rules, rule.findings adaptation.script = []) :
    rules.foldl Adaptation.apply adaptation = adaptation := by
  induction rules with
  | nil => rfl
  | cons rule rules induction =>
      rw [List.foldl_cons, Adaptation.apply_of_findings_eq_nil (silent rule List.mem_cons_self)]
      exact induction fun rule among => silent rule (List.mem_cons_of_mem _ among)

theorem settled_of_silent {dialect : Dialect} {script : String}
    (silent : ∀ rule ∈ rules dialect, rule.findings script.toList = []) :
    Settled dialect script := by
  have same : adapt dialect script = { script := script.toList } :=
    foldl_apply_of_findings_eq_nil silent
  have text : (adapt dialect script).text = script := by
    rw [same]
    exact String.ofList_toList
  refine ⟨text, by rw [same], ?_, silent⟩
  unfold Adaptation.differsFrom
  rw [text]
  exact bne_self_eq_false' ..

/-! ## Pieces across rules -/

/-- A piece stands in a script behind a character and, where a word could go on, in front of one. -/
def Stands (places : List Place) (previous : Option Char) (piece : List Place)
    (next : Option Char) : Prop :=
  ∃ front back, places = front ++ (piece ++ back) ∧ lastAfter none (chars front) = previous ∧
    (endsInWord (chars piece) = true → (chars back).head? = next)

variable {places piece : List Place} {previous next : Option Char}

theorem Stands.of_retrace {rule : Rule} (worded : rule.pattern.isWorded = true)
    (stands : Stands (rule.retrace places) previous piece next)
    (nonempty : piece ≠ []) (old : ∀ place ∈ piece, place.fresh = false) :
    Stands places previous piece next ∧
      ∀ rest : List Char, (endsInWord (chars piece) = true → rest.head? = next) →
        rule.pattern.after? previous (chars piece ++ rest) ≠ some rest := by
  rcases stands with ⟨front, back, traced, before, after⟩
  rcases exists_of_retrace traced nonempty old with
    ⟨front', back', whole, _, same, behind, unmatched⟩
  have standing : lastAfter none (chars front') = previous := by rw [same, before]
  have following : endsInWord (chars piece) = true → (chars back').head? = next :=
    fun ends => (behind ends).trans (after ends)
  refine ⟨⟨front', back', whole, standing, following⟩, ?_⟩
  intro rest fits found
  have held := chars_ne_nil nonempty
  have again : endsInWord (chars piece) = true → (chars back').head? = rest.head? :=
    fun ends => (following ends).trans (fits ends).symm
  rcases rule.pattern.after?_other worded found held again with ⟨left, found, shorter⟩
  rw [standing] at unmatched
  apply unmatched ((chars piece ++ chars back').length - left.length - 1)
  rw [Pattern.matchLength?, found, Option.map_some]
  congr 1
  omega

theorem Stands.of_foldl_retrace {rules : List Rule}
    (worded : ∀ rule ∈ rules, rule.pattern.isWorded = true)
    (stands : Stands (rules.foldl (fun places rule => rule.retrace places) places) previous piece
      next)
    (nonempty : piece ≠ []) (old : ∀ place ∈ piece, place.fresh = false) :
    Stands places previous piece next := by
  induction rules generalizing places with
  | nil => exact stands
  | cons rule rules induction =>
      have later := induction (fun rule among => worded rule (List.mem_cons_of_mem _ among)) stands
      exact (later.of_retrace (worded rule List.mem_cons_self) nonempty old).1

theorem exists_fresh_of_mem_foundPlaces {dialect : Dialect} {script : String} {rule : Rule}
    (among : rule ∈ rules dialect) (found : piece ∈ rule.foundPlaces (trace dialect script)) :
    ∃ place ∈ piece, place.fresh = true := by
  have worded : ∀ rule ∈ rules dialect, rule.pattern.isWorded = true :=
    fun rule among => isWorded_of_mem_rules among
  rcases exists_of_mem_foundPlaces (worded rule among) found with
    ⟨front, back, whole, nonempty, after⟩
  apply Classical.byContradiction
  intro none
  have old : ∀ place ∈ piece, place.fresh = false := by
    intro place member
    cases fresh : place.fresh with
    | false => rfl
    | true => exact absurd ⟨place, member, fresh⟩ none
  have stands : Stands (trace dialect script) (lastAfter Option.none (chars front)) piece
      (chars back).head? :=
    ⟨front, back, whole, rfl, fun _ => rfl⟩
  rcases List.append_of_mem among with ⟨earlier, later, split⟩
  rw [trace, split, List.foldl_append, List.foldl_cons] at stands
  rw [split] at worded
  have standing := stands.of_foldl_retrace
    (fun rule among => worded rule (List.mem_append_right _ (List.mem_cons_of_mem _ among)))
    nonempty old
  have unfound := (standing.of_retrace
    (worded rule (List.mem_append_right _ List.mem_cons_self)) nonempty old).2
  exact unfound (chars back) (fun _ => rfl) after

/-- One pass settles a script exactly when no rule finds a piece with a fresh place in what it
leaves. -/
theorem adapt_settled_iff (dialect : Dialect) (script : String) :
    Settled dialect (adapt dialect script).text ↔
      ∀ rule ∈ rules dialect, ∀ piece ∈ rule.foundPlaces (trace dialect script),
        ∀ place ∈ piece, place.fresh = false := by
  have chars : (adapt dialect script).text.toList = chars (trace dialect script) := by
    rw [chars_trace, Adaptation.text, String.toList_ofList]
  have found : ∀ rule : Rule, rule.findings (adapt dialect script).text.toList =
      (rule.foundPlaces (trace dialect script)).map Script.chars := by
    intro rule
    rw [chars]
    exact (map_chars_foundPlaces rule.pattern none (trace dialect script)).symm
  constructor
  · intro settled rule among piece member
    have silent := settled.silent rule among
    rw [found, List.map_eq_nil_iff] at silent
    rw [silent] at member
    cases member
  · intro old
    apply settled_of_silent
    intro rule among
    rw [found, List.map_eq_nil_iff, List.eq_nil_iff_forall_not_mem]
    intro piece member
    rcases exists_fresh_of_mem_foundPlaces among member with ⟨place, inside, fresh⟩
    rw [old rule among piece member place inside] at fresh
    cases fresh

/-- A transaction on one line is not settled after one pass: what stood behind the statement that
was taken out begins a line then. -/
theorem adapt_not_settled :
    ¬ ∀ (dialect : Dialect) (script : String), Settled dialect (adapt dialect script).text := by
  intro settled
  have changes := (settled .d1 "BEGIN; COMMIT;").changes
  revert changes
  decide +kernel

end SchemaDdl.Script
