import SchemaDdl.Proofs.Script.Reach

/-!
# Places of adapted scripts

An adapted script with a mark on each of its characters that the rules brought where it is: what a
rule wrote, and what moved behind a piece that was found. All other characters stand in the script
as they stood in it before, with the same neighbour in front of them, and had been read by every
rule without being part of anything that it looks for.
-/

namespace SchemaDdl.Script

open Text

/-- A character of a script under adaptation. It is fresh when a rule wrote it, or found a piece
right in front of it. -/
structure Place where
  char : Char
  fresh : Bool
deriving DecidableEq, Repr

def chars (places : List Place) : List Char :=
  places.map Place.char

def unchanged (script : List Char) : List Place :=
  script.map (⟨·, false⟩)

/-- The places that a rule leaves of the segments into which it cut them; `behind` says whether it
found a piece right in front of them. -/
def retrace (replacement : List Char) :
    (behind : Bool) → List Segment → List Place → List Place
  | _, [], _ => []
  | behind, .kept char :: segments, places =>
      ⟨char, behind || places.head?.any Place.fresh⟩
        :: retrace replacement false segments places.tail
  | _, .found text :: segments, places =>
      replacement.map (⟨·, true⟩) ++ retrace replacement true segments (places.drop text.length)

def Rule.retrace (rule : Rule) (places : List Place) : List Place :=
  Script.retrace rule.replacement.toList false (segments rule.pattern none (chars places)) places

/-- The places of a script after all rules of a dialect. -/
def trace (dialect : Dialect) (script : String) : List Place :=
  (rules dialect).foldl (fun places rule => rule.retrace places) (unchanged script.toList)

/-- The pieces among segments, as places. -/
def foundPlaces : List Segment → List Place → List (List Place)
  | [], _ => []
  | .kept _ :: segments, places => foundPlaces segments places.tail
  | .found text :: segments, places =>
      places.take text.length :: foundPlaces segments (places.drop text.length)

/-- The pieces that a rule finds, as places. -/
def Rule.foundPlaces (rule : Rule) (places : List Place) : List (List Place) :=
  Script.foundPlaces (segments rule.pattern none (chars places)) places

/-! ## The characters at the places -/

theorem chars_ne_nil {places : List Place} (nonempty : places ≠ []) : chars places ≠ [] :=
  fun none => nonempty (List.map_eq_nil_iff.mp none)

theorem chars_append (front back : List Place) :
    chars (front ++ back) = chars front ++ chars back :=
  List.map_append

theorem chars_unchanged (script : List Char) : chars (unchanged script) = script := by
  unfold chars unchanged
  rw [List.map_map]
  exact List.map_id script

theorem chars_retrace (replacement : List Char) (behind : Bool) (segments : List Segment)
    (places : List Place) :
    chars (retrace replacement behind segments places) =
      segments.flatMap (Segment.replaced replacement) := by
  induction segments generalizing behind places with
  | nil => rfl
  | cons segment segments induction =>
      rw [List.flatMap_cons]
      cases segment with
      | kept char => exact congrArg (char :: ·) (induction false places.tail)
      | found text =>
          have written : chars (replacement.map (⟨·, true⟩)) = replacement := by
            unfold chars
            rw [List.map_map]
            exact List.map_id replacement
          rw [retrace, chars_append, written, induction]
          rfl

theorem Rule.chars_retrace (rule : Rule) (places : List Place) :
    chars (rule.retrace places) = rule.apply (chars places) :=
  Script.chars_retrace ..

theorem script_foldl (rules : List Rule) (adaptation : Adaptation) :
    (rules.foldl Adaptation.apply adaptation).script =
      rules.foldl (fun script rule => rule.apply script) adaptation.script := by
  induction rules generalizing adaptation with
  | nil => rfl
  | cons rule rules induction =>
      rw [List.foldl_cons, List.foldl_cons, induction, adaptation.script_apply]

theorem chars_foldl_retrace (rules : List Rule) (places : List Place) :
    chars (rules.foldl (fun places rule => rule.retrace places) places) =
      rules.foldl (fun script rule => rule.apply script) (chars places) := by
  induction rules generalizing places with
  | nil => rfl
  | cons rule rules induction =>
      rw [List.foldl_cons, List.foldl_cons, induction, rule.chars_retrace]

theorem chars_trace (dialect : Dialect) (script : String) :
    chars (trace dialect script) = (adapt dialect script).script := by
  rw [trace, chars_foldl_retrace, chars_unchanged, adapt, script_foldl]

/-! ## What stands in front -/

def lastAfter (previous : Option Char) (text : List Char) : Option Char :=
  text.getLast?.or previous

theorem lastAfter_append (previous : Option Char) (text more : List Char) :
    lastAfter previous (text ++ more) = lastAfter (lastAfter previous text) more := by
  unfold lastAfter
  rw [List.getLast?_append, Option.or_assoc]

theorem lastAfter_cons (previous : Option Char) (char : Char) (text : List Char) :
    lastAfter previous (char :: text) = lastAfter (some char) text :=
  lastAfter_append previous [char] text

theorem lastAfter_chars_cons (previous : Option Char) (place : Place) (places : List Place) :
    lastAfter previous (chars (place :: places)) = lastAfter (some place.char) (chars places) :=
  lastAfter_cons previous place.char (chars places)

theorem lastAfter_of_ne_nil {text : List Char} (nonempty : text ≠ []) (previous : Option Char) :
    lastAfter previous text = text.getLast? := by
  unfold lastAfter
  rw [List.getLast?_eq_some_getLast nonempty]
  rfl

/-! ## Pieces -/

variable {pattern : Pattern} {previous : Option Char} {text : List Char}

theorem Pattern.suffix_of_after? (worded : pattern.isWorded = true) {rest : List Char}
    (found : pattern.after? previous text = some rest) : rest <:+ text := by
  cases anchored : pattern.isAnchored with
  | true =>
      rcases Pattern.readsStatement anchored worded found with ⟨body, tail, whole, lineEnd, _⟩
      rw [whole, lineEnd]
      exact (suffix_afterLineEnd tail).trans (List.suffix_append_of_suffix (List.suffix_cons _ _))
  | false =>
      cases pattern with
      | statement heads demand => cases anchored
      | sentence phrases => cases anchored
      | definition heads => cases anchored
      | phrase words =>
          rcases Option.ite_none_right_eq_some.mp found with ⟨_, found⟩
          exact suffix_of_afterPhrase? (Option.filter_eq_some_iff.mp found).1
      | call function =>
          rcases Option.ite_none_right_eq_some.mp found with ⟨_, found⟩
          rcases exists_of_afterCall? found with ⟨piece, whole, _⟩
          rw [whole]
          exact List.suffix_append piece rest

theorem Pattern.wordBegins_of_after? {rest : List Char}
    (found : pattern.after? previous text = some rest) : wordBegins previous = true := by
  cases anchored : pattern.isAnchored with
  | true =>
      rw [pattern.after?_of_isAnchored anchored] at found
      rcases Option.ite_none_right_eq_some.mp found with ⟨begins, _⟩
      cases previous with
      | none => rfl
      | some char =>
          rw [eq_of_beq (show (char == '\n') = true from begins)]
          decide
  | false =>
      cases pattern with
      | statement heads demand => cases anchored
      | sentence phrases => cases anchored
      | definition heads => cases anchored
      | phrase words => exact (Option.ite_none_right_eq_some.mp found).1
      | call function => exact (Option.ite_none_right_eq_some.mp found).1

theorem Pattern.after?_of_matchLength? (worded : pattern.isWorded = true) {length : Nat}
    (matched : pattern.matchLength? previous text = some length) :
    pattern.after? previous (text.take length ++ text.drop length) = some (text.drop length) := by
  rw [List.take_append_drop]
  rcases Option.map_eq_some_iff.mp matched with ⟨rest, found, equal⟩
  have suffix := Pattern.suffix_of_after? worded found
  rw [found, ← equal, ← List.suffix_iff_eq_drop.mp suffix]

theorem exists_of_chars_eq_append {places : List Place} {found rest : List Char}
    (held : chars places = found ++ rest) :
    ∃ front back, places = front ++ back ∧ chars front = found ∧ chars back = rest ∧
      front.length = found.length := by
  rcases List.map_eq_append_iff.mp held with ⟨front, back, whole, first, second⟩
  refine ⟨front, back, whole, first, second, ?_⟩
  rw [← first, List.length_map]

theorem exists_of_chars_eq_cons {places : List Place} {char : Char} {rest : List Char}
    (held : chars places = char :: rest) :
    ∃ place back, places = place :: back ∧ place.char = char ∧ chars back = rest :=
  List.map_eq_cons_iff.mp held

theorem cons_eq_take_append_drop (char : Char) (text : List Char) (length : Nat) :
    char :: text = (char :: text.take length) ++ text.drop length := by
  rw [List.cons_append, List.take_append_drop]

theorem map_chars_foundPlaces (pattern : Pattern) (previous : Option Char) (places : List Place) :
    (foundPlaces (segments pattern previous (chars places)) places).map chars =
      (segments pattern previous (chars places)).filterMap Segment.found? := by
  generalize held : chars places = text
  fun_induction segments pattern previous text generalizing places with
  | case1 => rfl
  | case2 previous char text length matched found induction =>
      rw [cons_eq_take_append_drop char text length] at held
      rcases exists_of_chars_eq_append held with ⟨front, back, rfl, first, second, long⟩
      rw [foundPlaces, List.take_left' long, List.drop_left' long, List.map_cons,
        induction back second, first]
      rfl
  | case3 previous char text unmatched induction =>
      rcases exists_of_chars_eq_cons held with ⟨place, back, rfl, _, rest⟩
      exact induction back rest

theorem exists_of_mem_foundPlaces (worded : pattern.isWorded = true) {places piece : List Place}
    (among : piece ∈ foundPlaces (segments pattern previous (chars places)) places) :
    ∃ front back, places = front ++ (piece ++ back) ∧ piece ≠ [] ∧
      pattern.after? (lastAfter previous (chars front)) (chars piece ++ chars back) =
        some (chars back) := by
  generalize held : chars places = text at among
  fun_induction segments pattern previous text generalizing places with
  | case1 => cases among
  | case2 previous char text length matched found =>
      rename_i induction
      have after := Pattern.after?_of_matchLength? worded matched
      rw [cons_eq_take_append_drop char text length] at held
      rcases exists_of_chars_eq_append held with ⟨first, others, rfl, firstChars, rest, long⟩
      rw [foundPlaces, List.take_left' long, List.drop_left' long] at among
      rcases List.mem_cons.mp among with rfl | among
      · refine ⟨[], others, rfl, ?_, ?_⟩
        · intro empty
          rw [empty] at firstChars
          cases firstChars
        · rw [firstChars, rest]
          exact after
      · rcases induction rest among with ⟨front, back, rfl, nonempty, after⟩
        refine ⟨first ++ front, back, by rw [List.append_assoc], nonempty, ?_⟩
        rw [chars_append, lastAfter_append, firstChars,
          lastAfter_of_ne_nil (List.cons_ne_nil _ _)]
        exact after
  | case3 previous char text unmatched =>
      rename_i induction
      rcases exists_of_chars_eq_cons held with ⟨place, others, rfl, same, rest⟩
      rcases induction rest among with ⟨front, back, rfl, nonempty, after⟩
      refine ⟨place :: front, back, rfl, nonempty, ?_⟩
      rw [lastAfter_chars_cons, same]
      exact after

/-! ## What a rule leaves -/

theorem fresh_of_retrace_behind {replacement : List Char} {segments : List Segment}
    {places left : List Place} {place : Place}
    (traced : retrace replacement true segments places = place :: left) : place.fresh = true := by
  induction segments generalizing places with
  | nil => cases traced
  | cons segment segments induction =>
      cases segment with
      | kept char =>
          cases traced
          rfl
      | found text =>
          rw [retrace] at traced
          cases replacement with
          | nil => exact induction traced
          | cons char replacement =>
              cases traced
              rfl

theorem head?_retrace_of_inWord {replacement : List Char} {places : List Place}
    (inside : wordBegins previous = false) :
    (chars (retrace replacement false (segments pattern previous (chars places)) places)).head? =
      (chars places).head? := by
  cases places with
  | nil =>
      have none : segments pattern previous (chars []) = [] := segments_nil pattern previous
      rw [none]
      rfl
  | cons place places =>
      have missing : pattern.after? previous (chars (place :: places)) = none := by
        rw [Option.eq_none_iff_forall_ne_some]
        intro rest found
        rw [Pattern.wordBegins_of_after? found] at inside
        cases inside
      unfold chars at missing ⊢
      rw [List.map_cons] at missing ⊢
      rw [segments_of_none missing]
      rfl

theorem exists_of_retrace_behind {replacement : List Char} {segments : List Segment}
    {places front piece back : List Place}
    (traced : replacement.map (⟨·, true⟩) ++ retrace replacement true segments places =
      front ++ (piece ++ back))
    (nonempty : piece ≠ []) (old : ∀ place ∈ piece, place.fresh = false) :
    ∃ between, between ≠ [] ∧ front = replacement.map (⟨·, true⟩) ++ between ∧
      retrace replacement true segments places = between ++ (piece ++ back) := by
  rcases List.exists_cons_of_ne_nil nonempty with ⟨place, others, rfl⟩
  have first := old place List.mem_cons_self
  rcases List.append_eq_append_iff.mp traced with ⟨between, equal, left⟩ | ⟨overlap, equal, left⟩
  · refine ⟨between, ?_, equal, left⟩
    intro empty
    rw [empty, List.nil_append, List.cons_append] at left
    rw [fresh_of_retrace_behind left] at first
    cases first
  · cases overlap with
    | nil =>
        rw [List.nil_append, List.cons_append] at left
        rw [fresh_of_retrace_behind left.symm] at first
        cases first
    | cons written overlap =>
        have among : written ∈ replacement.map (⟨·, true⟩ : Char → Place) := by
          rw [equal]
          exact List.mem_append_right front List.mem_cons_self
        rcases List.mem_map.mp among with ⟨char, _, rfl⟩
        cases (List.cons.inj left).1
        cases first

theorem endsInWord_of_cons_cons {first second : Char} {text : List Char}
    (ends : endsInWord (first :: second :: text) = true) : endsInWord (second :: text) = true := by
  unfold endsInWord at ends ⊢
  rw [List.getLast?_cons_cons] at ends
  exact ends

/-- A piece of the script that a rule left, behind `front` and in front of `back`, stood in the
script before behind `front'` and in front of `back'`: with the same character in front of it and,
where a word could go on, behind it; and nothing that the rule looks for began with it. -/
structure Stood (pattern : Pattern) (previous : Option Char)
    (places front piece back front' back' : List Place) : Prop where
  whole : places = front' ++ (piece ++ back')
  leads : front = [] → front' = []
  before : lastAfter previous (chars front') = lastAfter previous (chars front)
  after : endsInWord (chars piece) = true → (chars back').head? = (chars back).head?
  unmatched : ∀ length, pattern.matchLength? (lastAfter previous (chars front'))
    (chars piece ++ chars back') ≠ some (length + 1)

namespace Stood

variable {places front piece back front' back' : List Place} {place : Place}

theorem behind_found {found written : List Place} {last : Option Char}
    (stood : Stood pattern (chars found).getLast? places front piece back front' back')
    (foundSome : found ≠ []) (someBefore : front ≠ []) :
    Stood pattern last (found ++ places) (written ++ front) piece back (found ++ front') back' where
  whole := by rw [stood.whole, List.append_assoc]
  leads empty := absurd (List.append_eq_nil_iff.mp empty).2 someBefore
  before := by
    have held := chars_ne_nil someBefore
    rw [chars_append, lastAfter_append, lastAfter_of_ne_nil (chars_ne_nil foundSome), stood.before,
      chars_append, lastAfter_append, lastAfter_of_ne_nil held, lastAfter_of_ne_nil held]
  after := stood.after
  unmatched := by
    rw [chars_append, lastAfter_append, lastAfter_of_ne_nil (chars_ne_nil foundSome)]
    exact stood.unmatched

theorem behind_kept {fresh : Bool}
    (stood : Stood pattern (some place.char) places front piece back front' back') :
    Stood pattern previous (place :: places) (⟨place.char, fresh⟩ :: front) piece back
      (place :: front') back' where
  whole := by rw [stood.whole, List.cons_append]
  leads empty := absurd empty (List.cons_ne_nil _ _)
  before := by rw [lastAfter_chars_cons, lastAfter_chars_cons, stood.before]
  after := stood.after
  unmatched := by
    rw [lastAfter_chars_cons]
    exact stood.unmatched

theorem of_kept {replacement : List Char}
    (unmatched : ∀ length,
      pattern.matchLength? previous (chars (place :: places)) ≠ some (length + 1)) :
    Stood pattern previous (place :: places) [] [place]
      (retrace replacement false (segments pattern (some place.char) (chars places)) places)
      [] places where
  whole := rfl
  leads _ := rfl
  before := rfl
  after ends := by
    have inside : wordBegins (some place.char) = false := by
      simpa [wordBegins, endsInWord, chars] using ends
    rw [head?_retrace_of_inWord inside]
  unmatched := unmatched

theorem cons_kept (stood : Stood pattern (some place.char) places [] piece back front' back')
    (nonempty : piece ≠ [])
    (unmatched : ∀ length,
      pattern.matchLength? previous (chars (place :: places)) ≠ some (length + 1)) :
    Stood pattern previous (place :: places) [] (place :: piece) back [] back' where
  whole := by rw [stood.whole, stood.leads rfl, List.nil_append, List.nil_append, List.cons_append]
  leads _ := rfl
  before := rfl
  after ends := by
    rcases List.exists_cons_of_ne_nil nonempty with ⟨second, others, rfl⟩
    exact stood.after (endsInWord_of_cons_cons ends)
  unmatched length matched := by
    apply unmatched length
    rw [stood.whole, stood.leads rfl, List.nil_append, ← List.cons_append, chars_append]
    exact matched

theorem exists_of_kept {replacement : List Char} {behind : Bool}
    (unmatched : ∀ length,
      pattern.matchLength? previous (chars (place :: places)) ≠ some (length + 1))
    (traced : (⟨place.char, behind || place.fresh⟩ : Place) ::
        retrace replacement false (segments pattern (some place.char) (chars places)) places =
      piece ++ back)
    (nonempty : piece ≠ []) (old : ∀ place ∈ piece, place.fresh = false)
    (shorter : ∀ {piece : List Place}, piece ≠ [] → (∀ place ∈ piece, place.fresh = false) →
      retrace replacement false (segments pattern (some place.char) (chars places)) places =
        piece ++ back →
      ∃ front' back', Stood pattern (some place.char) places [] piece back front' back') :
    ∃ front' back', Stood pattern previous (place :: places) [] piece back front' back' := by
  rcases List.exists_cons_of_ne_nil nonempty with ⟨first, others, rfl⟩
  rw [List.cons_append] at traced
  rcases List.cons.inj traced with ⟨rfl, left⟩
  -- The first place of the piece is the one that was kept.
  have kept := old _ List.mem_cons_self
  have same : (⟨place.char, behind || place.fresh⟩ : Place) = place := by
    rw [(Bool.or_eq_false_iff.mp kept).1, Bool.false_or]
  rw [same] at old ⊢
  cases others with
  | nil =>
      rw [List.nil_append] at left
      exact ⟨[], places, left ▸ Stood.of_kept unmatched⟩
  | cons second others =>
      have rest : ∀ place ∈ second :: others, place.fresh = false :=
        fun place among => old place (List.mem_cons_of_mem _ among)
      rcases shorter (List.cons_ne_nil _ _) rest left with ⟨front', back', stood⟩
      exact ⟨[], back', stood.cons_kept (List.cons_ne_nil _ _) unmatched⟩

end Stood

theorem exists_of_retrace {replacement : List Char} {behind : Bool}
    {places front piece back : List Place}
    (traced : retrace replacement behind (segments pattern previous (chars places)) places =
      front ++ (piece ++ back))
    (nonempty : piece ≠ []) (old : ∀ place ∈ piece, place.fresh = false) :
    ∃ front' back', Stood pattern previous places front piece back front' back' := by
  generalize held : chars places = text at traced
  fun_induction segments pattern previous text generalizing places front piece behind with
  | case1 previous =>
      rw [retrace] at traced
      exact absurd (List.append_eq_nil_iff.mp (List.append_eq_nil_iff.mp traced.symm).2).1 nonempty
  | case2 previous char text length matched found =>
      rename_i induction
      rw [cons_eq_take_append_drop char text length] at held
      rcases exists_of_chars_eq_append held with ⟨first, others, rfl, firstChars, rest, long⟩
      rw [retrace, List.drop_left' long] at traced
      rcases exists_of_retrace_behind traced nonempty old with ⟨between, some, rfl, left⟩
      rcases induction nonempty old rest left with ⟨front', back', stood⟩
      have foundSome : first ≠ [] := by
        rintro rfl
        cases firstChars
      rw [← show chars first = found from firstChars] at stood
      exact ⟨first ++ front', back', stood.behind_found foundSome some⟩
  | case3 previous char text unmatched =>
      rename_i induction
      rcases exists_of_chars_eq_cons held with ⟨place, others, rfl, rfl, rfl⟩
      rw [retrace] at traced
      cases front with
      | cons first front =>
          rcases List.cons.inj traced with ⟨rfl, left⟩
          rcases induction nonempty old rfl left with ⟨front', back', stood⟩
          exact ⟨place :: front', back', stood.behind_kept⟩
      | nil => exact Stood.exists_of_kept unmatched traced nonempty old fun rest others left =>
          @induction false _ [] _ rest others rfl left

end SchemaDdl.Script
