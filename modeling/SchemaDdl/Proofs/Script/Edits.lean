import SchemaDdl.Proofs.Script.Offsets

/-!
# Edits

Rules applied by offsets: where a rule changes a script, what stands there, and the script with the
replacement spliced in at these places. The places are found in order and do not meet, they split
no character, and everything between them is left as it is.
-/

namespace SchemaDdl.Script

open Text

def Rule.edits? (rule : Rule) (script : List Char) : Option (List Span) :=
  match rule.pattern with
  | .definition heads => definitionSpans? script 0 (headSpans heads 0 none 0 script)
  | pattern => some (spans 0 (segments pattern none script))

def splice? (replacement script : List Char) : (offset : Nat) → List Span → Option (List Char)
  | offset, [] => behind? offset script
  | offset, span :: spans => do
      let kept ← slice? ⟨offset, span.start⟩ script
      let rest ← splice? replacement script span.stop spans
      return kept ++ (replacement ++ rest)

def Adaptation.edit? (adaptation : Adaptation) (rule : Rule) : Option Adaptation := do
  let spans ← rule.edits? adaptation.script
  if spans = [] then
    return adaptation
  let script ← splice? rule.replacement.toList adaptation.script 0 spans
  if script = adaptation.script then
    return adaptation
  let found ← spans.mapM (slice? · adaptation.script)
  return { script, changes := adaptation.changes ++ [⟨rule, found⟩] }

/-- A text that begins at an offset, and the same text with a replacement for the pieces at some
places. -/
inductive Spliced (replacement : List Char) :
    (offset : Nat) → List Span → (pieces : List (List Char)) → (text changed : List Char) → Prop
  | unchanged (offset : Nat) (text : List Char) : Spliced replacement offset [] [] text text
  | replaced {offset : Nat} {span : Span} {spans : List Span} {kept piece text changed : List Char}
      {pieces : List (List Char)}
      (nonempty : piece ≠ [])
      (starts : span.start = offset + byteSize kept)
      (stops : span.stop = span.start + byteSize piece)
      (behind : Spliced replacement span.stop spans pieces text changed) :
      Spliced replacement offset (span :: spans) (piece :: pieces) (kept ++ (piece ++ text))
        (kept ++ (replacement ++ changed))

/-- What the edits of a rule are in a script, and what becomes of it. -/
structure Edited (rule : Rule) (script : List Char) (spans : List Span)
    (pieces : List (List Char)) : Prop where
  edits : rule.edits? script = some spans
  nonempty : ∀ span ∈ spans, span.start < span.stop
  ordered : spans.Pairwise fun earlier later => earlier.stop ≤ later.start
  within : ∀ span ∈ spans, span.stop ≤ byteSize script
  boundaries : ∀ span ∈ spans,
    (splitBytes? span.start script).isSome = true ∧ (splitBytes? span.stop script).isSome = true
  slices : spans.mapM (slice? · script) = some pieces
  splice : splice? rule.replacement.toList script 0 spans = some (rule.apply script)
  /-- The script that the rule leaves is the one with the replacement at exactly these places. -/
  spliced : Spliced rule.replacement.toList 0 spans pieces script (rule.apply script)
  /-- No step on the way fails, and there is a record exactly when there is an edit. -/
  recorded : ∀ changes : List Change,
    Adaptation.edit? ⟨script, changes⟩ rule = some (Adaptation.apply ⟨script, changes⟩ rule) ∧
      (Adaptation.apply ⟨script, changes⟩ rule).changes =
        changes ++ if spans = [] then [] else [⟨rule, pieces⟩]
  /-- The record shows the pieces one by one without the blanks around them, and their number. -/
  shown : (Change.mk rule pieces).encode = .object
    [("rule", .string rule.code), ("description", .string rule.description),
      ("original", .string (join "\n" (pieces.map fun piece => String.ofList (trim piece)))),
      ("replacement", .string (trimmed rule.replacement)),
      ("matches", Json.Value.ofNat spans.length)]

/-! ## Splicing -/

namespace Spliced

variable {replacement text changed : List Char} {offset : Nat} {spans : List Span}
  {pieces : List (List Char)}

theorem length_eq (spliced : Spliced replacement offset spans pieces text changed) :
    spans.length = pieces.length := by
  induction spliced with
  | unchanged => rfl
  | replaced _ _ _ _ induction => rw [List.length_cons, List.length_cons, induction]

theorem le_start (spliced : Spliced replacement offset spans pieces text changed) :
    ∀ span ∈ spans, offset ≤ span.start := by
  induction spliced with
  | unchanged => exact fun span among => absurd among List.not_mem_nil
  | replaced _ starts stops _ induction =>
      intro other among
      rcases List.mem_cons.mp among with rfl | among
      · omega
      · have later := induction other among
        omega

theorem ordered (spliced : Spliced replacement offset spans pieces text changed) :
    spans.Pairwise fun earlier later => earlier.stop ≤ later.start := by
  induction spliced with
  | unchanged => exact List.Pairwise.nil
  | replaced _ _ _ behind induction => exact List.pairwise_cons.mpr ⟨behind.le_start, induction⟩

theorem exists_of_mem (spliced : Spliced replacement offset spans pieces text changed)
    {front : List Char} (size : byteSize front = offset) :
    ∀ span ∈ spans, ∃ before piece after, front ++ text = before ++ (piece ++ after) ∧ piece ≠ [] ∧
      span = ⟨byteSize before, byteSize before + byteSize piece⟩ := by
  induction spliced generalizing front with
  | unchanged => exact fun span among => absurd among List.not_mem_nil
  | @replaced offset span spans kept piece text changed pieces nonempty starts stops _ induction =>
      have start : byteSize (front ++ kept) = span.start := by
        rw [byteSize_append, size, starts]
      have stop : byteSize (front ++ (kept ++ piece)) = span.stop := by
        rw [← List.append_assoc, byteSize_append, start, stops]
      intro other among
      rcases List.mem_cons.mp among with rfl | among
      · refine ⟨front ++ kept, piece, text, (List.append_assoc ..).symm, nonempty, ?_⟩
        rw [start, ← stops]
      · rcases induction stop other among with ⟨before, inner, after, whole, rest⟩
        refine ⟨before, inner, after, ?_, rest⟩
        rw [← whole]
        simp only [List.append_assoc]

theorem slices (spliced : Spliced replacement offset spans pieces text changed)
    {front : List Char} (size : byteSize front = offset) :
    spans.mapM (slice? · (front ++ text)) = some pieces := by
  induction spliced generalizing front with
  | unchanged => rfl
  | @replaced offset span spans kept piece text changed pieces _ starts stops _ induction =>
      have start : byteSize (front ++ kept) = span.start := by
        rw [byteSize_append, size, starts]
      have stop : byteSize (front ++ (kept ++ piece)) = span.stop := by
        rw [← List.append_assoc, byteSize_append, start, stops]
      have later := induction stop
      have here := slice?_append (front ++ kept) piece text
      rw [start, ← stops] at here
      simp only [List.append_assoc] at here later
      rw [List.mapM_cons, here, later]
      rfl

theorem splice?_eq (spliced : Spliced replacement offset spans pieces text changed)
    {front : List Char} (size : byteSize front = offset) :
    splice? replacement (front ++ text) offset spans = some changed := by
  induction spliced generalizing front with
  | unchanged =>
      rw [splice?, ← size]
      exact behind?_append _ _
  | @replaced offset span spans kept piece text changed pieces _ starts stops _ induction =>
      have stop : byteSize (front ++ (kept ++ piece)) = span.stop := by
        rw [byteSize_append, byteSize_append, size, stops, starts, Nat.add_assoc]
      have later := induction stop
      have here := slice?_append front kept (piece ++ text)
      rw [size, ← starts] at here
      simp only [List.append_assoc] at later
      rw [splice?, here, later]
      rfl

end Spliced

/-! ## Pieces -/

theorem spliced_segments {segments : List Segment}
    (solid : ∀ text, .found text ∈ segments → text ≠ []) (replacement kept : List Char)
    (offset : Nat) :
    Spliced replacement offset (spans (offset + byteSize kept) segments)
      (segments.filterMap Segment.found?) (kept ++ segments.flatMap Segment.text)
      (kept ++ segments.flatMap (Segment.replaced replacement)) := by
  induction segments generalizing kept offset with
  | nil => exact .unchanged offset _
  | cons segment segments induction =>
      have later := fun text among => solid text (List.mem_cons_of_mem segment among)
      cases segment with
      | kept char =>
          have spliced := induction later (kept ++ [char]) offset
          rw [byteSize_append, ← Nat.add_assoc, List.append_assoc, List.append_assoc] at spliced
          exact spliced
      | found text =>
          have behind := induction later [] (offset + byteSize kept + byteSize text)
          exact .replaced (solid text List.mem_cons_self) rfl rfl behind

theorem found_ne_nil (pattern : Pattern) (previous : Option Char) (text : List Char) :
    ∀ piece, .found piece ∈ segments pattern previous text → piece ≠ [] := by
  fun_induction segments pattern previous text with
  | case1 => exact fun text among => absurd among List.not_mem_nil
  | case2 previous char text length matched found induction =>
      intro piece among
      rcases List.mem_cons.mp among with same | among
      · cases same
        exact List.cons_ne_nil _ _
      · exact induction piece among
  | case3 previous char text unmatched induction =>
      intro piece among
      rcases List.mem_cons.mp among with same | among
      · cases same
      · exact induction piece among

variable {dialect : Dialect} {rule : Rule}

theorem Rule.edits?_eq (among : rule ∈ rules dialect) (script : List Char) :
    rule.edits? script = some (spans 0 (segments rule.pattern none script)) := by
  have each : ∀ dialect : Dialect, (rules dialect).all (fun rule =>
      !rule.spansBody || decide (rule.pattern = .definition definitionHeads)) = true := by
    intro dialect
    cases dialect <;> decide +kernel
  have single := List.all_eq_true.mp (each dialect) rule among
  unfold Rule.edits?
  split
  · rename_i heads pattern
    rw [Rule.spansBody, pattern] at single
    have same : heads = definitionHeads := by simpa using single
    rw [pattern, same]
    exact definitionSpans?_eq [] script none (Nat.le_refl 0)
  · rfl

theorem spliced_findings (rule : Rule) (script : List Char) :
    Spliced rule.replacement.toList 0 (spans 0 (segments rule.pattern none script))
      (rule.findings script) script (rule.apply script) := by
  have whole := spliced_segments (found_ne_nil rule.pattern none script)
    rule.replacement.toList [] 0
  rw [List.nil_append, List.nil_append, flatMap_text_segments] at whole
  exact whole

theorem spans_eq_nil_iff (rule : Rule) (script : List Char) :
    spans 0 (segments rule.pattern none script) = [] ↔ rule.findings script = [] := by
  rw [← List.length_eq_zero_iff, (spliced_findings rule script).length_eq, List.length_eq_zero_iff]

theorem Adaptation.edit?_eq (among : rule ∈ rules dialect) (adaptation : Adaptation) :
    adaptation.edit? rule = some (adaptation.apply rule) := by
  have spliced := spliced_findings rule adaptation.script
  have empty : byteSize [] = 0 := rfl
  have nothing := spans_eq_nil_iff rule adaptation.script
  unfold Adaptation.edit?
  rw [Rule.edits?_eq among, Option.bind_eq_bind, Option.bind_some]
  rcases adaptation.apply_eq_or rule with ⟨none, same⟩ | ⟨found, recorded⟩
  · rw [if_pos (nothing.mpr none), same]
    rfl
  · have other : rule.apply adaptation.script ≠ adaptation.script := by
      intro same
      have shorter := (Rule.shortens among adaptation.script found).1
      rw [same] at shorter
      exact Nat.lt_irrefl _ shorter
    have changed := spliced.splice?_eq empty
    have pieces := spliced.slices empty
    rw [List.nil_append] at changed pieces
    rw [if_neg (mt nothing.mp found), changed, recorded]
    simp only [Option.bind_eq_bind, Option.bind_some, if_neg other, pieces]
    rfl

/-- The edits of each rule are well formed, and splicing them in is exact. -/
theorem edited_of_mem_rules (among : rule ∈ rules dialect) (script : List Char) :
    ∃ spans pieces, Edited rule script spans pieces := by
  have spliced := spliced_findings rule script
  have empty : byteSize [] = 0 := rfl
  have places := spliced.exists_of_mem empty
  refine ⟨spans 0 (segments rule.pattern none script), rule.findings script, ?_⟩
  constructor
  case edits => exact Rule.edits?_eq among script
  case spliced => exact spliced
  case ordered => exact spliced.ordered
  case slices => exact spliced.slices empty
  case splice => exact spliced.splice?_eq empty
  case nonempty =>
    intro span member
    rcases places span member with ⟨before, piece, after, _, nonempty, rfl⟩
    exact Nat.lt_add_of_pos_right (byteSize_pos nonempty)
  case within =>
    intro span member
    rcases places span member with ⟨before, piece, after, whole, _, rfl⟩
    rw [List.nil_append] at whole
    rw [whole, byteSize_append, byteSize_append, ← Nat.add_assoc]
    exact Nat.le_add_right _ _
  case boundaries =>
    intro span member
    rcases places span member with ⟨before, piece, after, whole, _, rfl⟩
    rw [List.nil_append] at whole
    have start := splitBytes?_append before (piece ++ after)
    have stop := splitBytes?_append (before ++ piece) after
    rw [byteSize_append, List.append_assoc] at stop
    rw [whole, start, stop]
    exact ⟨rfl, rfl⟩
  case recorded =>
    intro changes
    refine ⟨Adaptation.edit?_eq among _, ?_⟩
    simp only [Adaptation.changes_apply, spans_eq_nil_iff]
  case shown =>
    rw [spliced.length_eq]
    rfl

/-! ## An example -/

namespace EditsExample

/-- A function between quotes in a script that is not ASCII, and a line that only begins as one. -/
def script : List Char :=
  ("-- é\n\tcreate function naïve() AS 'it''s – déjà; vu' LANGUAGE sql ; \r\n"
    ++ "CREATE FUNCTION later;\nSELECT 'ñ';\n").toList

end EditsExample

open EditsExample in
theorem edited_of_mem_rules_accents :
    Rule.removeFunctions ∈ rules .nile ∧
      ∃ spans pieces, Edited .removeFunctions script spans pieces :=
  have among : Rule.removeFunctions ∈ rules .nile := List.mem_cons_self
  ⟨among, edited_of_mem_rules among script⟩

open EditsExample in
example : Rule.removeFunctions.edits? script = some [⟨6, 75⟩] := by
  have spelled : script = _ := Text.toList_ofList_append
  rw [spelled]
  decide +kernel

end SchemaDdl.Script
