import SchemaDdl.Proofs.Script.Lexeme
import SchemaDdl.Proofs.Script.Places
import SchemaDdl.Proofs.Sql.Reading

/-!
# Definitions in scripts

Scripts that consist of definitions with bodies between dollar tags and of other text. The rule that
removes definitions finds each of them as a whole, whatever its body holds, and begins anew behind
it, so that what is left of such a script is its other text.
-/

namespace SchemaDdl.Script

open Text

/-! ## Definitions -/

def definitionHeads : List Phrase := [
  ["CREATE", "FUNCTION"], ["CREATE", "PROCEDURE"],
  ["CREATE", "OR", "REPLACE", "FUNCTION"], ["CREATE", "OR", "REPLACE", "PROCEDURE"]]

def opensQuote : (previous : Option Char) → List Char → Bool
  | _, [] => false
  | previous, char :: text =>
      wordBegins previous && (afterOpeningQuote? (char :: text)).isSome
        || opensQuote (some char) text

def tagOf (name : List Char) : List Char :=
  '$' :: (name ++ ['$'])

structure Definition where
  /-- The words that it begins with, up to `FUNCTION` or `PROCEDURE`. -/
  head : List Char
  /-- What stands between these words and the body. -/
  header : List Char
  /-- The name between the dollar signs of the tags, which may be empty. -/
  name : List Char
  body : List Char
  /-- What stands between the body and the semicolon. -/
  trailer : List Char
  blanks : List Char
  lineBreak : List Char
  begins : afterHead? definitionHeads (head ++ header) = some header
  plain : ';' ∉ header ∧ '$' ∉ header
  unquoted : opensQuote none header = false
  named : name.all isTagPart = true ∧ name.head?.all isTagStart = true
  untagged : occursIn (tagOf name) body = false
  unended : ';' ∉ trailer
  blank : blanks.all isIndent = true
  breaks : lineBreak = ['\n'] ∨ lineBreak = ['\r', '\n']

namespace Definition

def tag (definition : Definition) : List Char :=
  tagOf definition.name

/-- What stands behind the body of a definition. -/
def ending (definition : Definition) : List Char :=
  definition.trailer ++ ';' :: (definition.blanks ++ definition.lineBreak)

def text (definition : Definition) : List Char :=
  definition.head ++ definition.header
    ++ (definition.tag ++ (definition.body ++ definition.tag)) ++ definition.ending

end Definition

/-! ## Tags -/

theorem isStop_dollar : isStop '$' = true := by
  decide

theorem dollarTag?_tagOf {name : List Char} (parts : name.all isTagPart = true)
    (starts : name.head?.all isTagStart = true) (rest : List Char) :
    dollarTag? (tagOf name ++ rest) = some (tagOf name, rest) := by
  have dollar : isTagPart '$' = false := by decide
  have each := List.all_eq_true.mp parts
  have taken : (name ++ '$' :: rest).takeWhile isTagPart = name := by
    rw [List.takeWhile_append_of_pos each, List.takeWhile_cons_of_neg (by rw [dollar]; decide),
      List.append_nil]
  have left : (name ++ '$' :: rest).dropWhile isTagPart = '$' :: rest := by
    rw [List.dropWhile_append_of_pos each, List.dropWhile_cons_of_neg (by rw [dollar]; decide)]
  have whole : tagOf name ++ rest = '$' :: (name ++ '$' :: rest) := by
    simp [tagOf]
  rw [whole, dollarTag?]
  simp only [taken, left, starts, if_true]
  rfl

theorem not_mem_tagOf {name : List Char} (parts : name.all isTagPart = true) :
    ';' ∉ tagOf name := by
  intro among
  rcases List.mem_cons.mp among with dollar | among
  · exact absurd dollar (by decide)
  · rcases List.mem_append.mp among with among | dollar
    · exact absurd (List.all_eq_true.mp parts _ among) (by decide)
    · exact absurd (List.mem_singleton.mp dollar) (by decide)

/-- Behind a text that does not hold the tag, the first tag may begin within the text, but nothing
else than an end of the tag can follow it. -/
theorem exists_afterOccurrence? {tag body : List Char} (absent : occursIn tag body = false) :
    ∃ left, left <:+ tag ∧ afterOccurrence? tag (body ++ tag) = some left := by
  induction body with
  | nil =>
      refine ⟨[], List.nil_suffix, ?_⟩
      have whole := after?_append tag []
      rw [List.append_nil] at whole
      rw [List.nil_append]
      cases tag with
      | nil => rfl
      | cons char tag => rw [afterOccurrence?, whole, Option.some_or]
  | cons char body induction =>
      rw [occursIn, Bool.or_eq_false_iff] at absent
      rw [List.cons_append, afterOccurrence?, ← List.cons_append]
      cases here : after? tag (char :: body ++ tag) with
      | none =>
          rw [Option.none_or]
          exact induction absent.2
      | some left =>
          refine ⟨left, ?_, Option.some_or⟩
          rcases List.append_eq_append_iff.mp (after?_eq_some_iff.mp here) with
            ⟨more, _, equal⟩ | ⟨more, equal, _⟩
          · exact ⟨more, equal.symm⟩
          · have starts : tag.isPrefixOf (char :: body) = true :=
              List.isPrefixOf_iff_prefix.mpr ⟨more, equal.symm⟩
            rw [absent.1] at starts
            cases starts

/-! ## Finding a definition -/

theorem afterBody?_header {header rest body : List Char} {name : List Char}
    (plain : ';' ∉ header ∧ '$' ∉ header) {previous : Option Char}
    (unquoted : opensQuote previous header = false)
    (tagged : dollarTag? ('$' :: rest) = some (tagOf name, body)) :
    afterBody? previous (header ++ '$' :: rest) = afterOccurrence? (tagOf name) body := by
  induction header generalizing previous with
  | nil => rw [List.nil_append, afterBody?, tagged]
  | cons char header induction =>
      rw [List.mem_cons, List.mem_cons, not_or, not_or] at plain
      rw [opensQuote, Bool.or_eq_false_iff] at unquoted
      have closed : (if wordBegins previous then afterOpeningQuote? (char :: header ++ '$' :: rest)
          else none) = none := by
        rw [afterOpeningQuote?_stop isStop_dollar (by decide)]
        split
        · rename_i begins
          rw [begins, Bool.true_and, Option.isSome_eq_false_iff, Option.isNone_iff_eq_none]
            at unquoted
          rw [unquoted.1, Option.map_none]
        · rfl
      rw [List.cons_append, afterBody?, ← List.cons_append,
        List.cons_append, dollarTag?_of_ne (Ne.symm plain.2.1), ← List.cons_append, closed]
      simp only [if_neg (Ne.symm plain.1.1)]
      exact induction ⟨plain.1.2, plain.2.2⟩ unquoted.2

theorem afterLineEnd_of_blank {blanks lineBreak : List Char} (blank : blanks.all isIndent = true)
    (breaks : lineBreak = ['\n'] ∨ lineBreak = ['\r', '\n']) (rest : List Char) :
    afterLineEnd (blanks ++ lineBreak ++ rest) = rest := by
  unfold afterLineEnd
  rw [List.append_assoc, List.dropWhile_append_of_pos (List.all_eq_true.mp blank)]
  rcases breaks with rfl | rfl
  · rfl
  · rfl

theorem Definition.afterDefinition?_text (definition : Definition) (rest : List Char) :
    afterDefinition? definitionHeads (definition.text ++ rest) = some rest := by
  rcases definition with ⟨head, header, name, body, trailer, blanks, lineBreak, begins, plain,
    unquoted, named, untagged, unended, blank, breaks⟩
  rcases exists_afterOccurrence? untagged with ⟨left, suffix, closed⟩
  have worded : definitionHeads.all isWorded = true := by decide +kernel
  have opened := @afterHead?_stop _ (head ++ header) '$' worded isStop_dollar
    (name ++ '$' :: (body ++ (tagOf name ++ (trailer ++ ';' :: (blanks ++ lineBreak ++ rest)))))
  rw [begins, Option.map_some] at opened
  have tagged := dollarTag?_tagOf named.1 named.2
    (body ++ (tagOf name ++ (trailer ++ ';' :: (blanks ++ lineBreak ++ rest))))
  rw [show ∀ more, tagOf name ++ more = '$' :: (name ++ '$' :: more) by simp [tagOf]] at tagged
  have inner := afterBody?_header plain unquoted tagged
  have behind := afterOccurrence?_append closed (trailer ++ ';' :: (blanks ++ lineBreak ++ rest))
  have absent : ';' ∉ left ++ trailer := by
    rw [List.mem_append, not_or]
    exact ⟨fun among => not_mem_tagOf named.1 (suffix.mem among), unended⟩
  have ended : splitFirst ';' ((left ++ trailer) ++ ';' :: (blanks ++ lineBreak ++ rest)) =
      some (left ++ trailer, blanks ++ lineBreak ++ rest) :=
    splitFirst_of_not_mem absent
  have whole : Definition.text ⟨head, header, name, body, trailer, blanks, lineBreak, begins, plain,
      unquoted, named, untagged, unended, blank, breaks⟩ ++ rest =
      (head ++ header) ++ '$' :: (name ++ '$' :: (body ++ (tagOf name
        ++ (trailer ++ ';' :: (blanks ++ lineBreak ++ rest))))) := by
    simp [Definition.text, Definition.tag, Definition.ending, tagOf]
  rw [afterDefinition?, whole, opened, Option.bind_some, inner]
  rw [← List.append_assoc, behind, Option.bind_some, ← List.append_assoc, ended, Option.map_some]
  exact congrArg some (afterLineEnd_of_blank blank breaks rest)

/-! ## Blocks -/

/-- A part of a script, which ends a line. -/
inductive Block where
  | defines (definition : Definition)
  | other (text : List Char) (ends : text.getLast? = some '\n')

namespace Block

def text : Block → List Char
  | .defines definition => definition.text
  | .other text _ => text

def definition? : Block → Option Definition
  | .defines definition => some definition
  | .other .. => none

end Block

/-- The text of some blocks. -/
def textOf (blocks : List Block) : List Char :=
  blocks.flatMap Block.text

def isHeadless : (previous : Option Char) → (text rest : List Char) → Bool
  | _, [], _ => true
  | previous, char :: text, rest =>
      !(lineBegins previous && (afterHead? definitionHeads (char :: text ++ rest)).isSome)
        && isHeadless (some char) text rest

/-- Whether definitions begin nowhere but within the blocks that are definitions. -/
def beginWithin : List Block → Bool
  | [] => true
  | .defines _ :: blocks => beginWithin blocks
  | .other text _ :: blocks => isHeadless none text (textOf blocks) && beginWithin blocks

theorem isHeadless_of_lineBegins {previous : Option Char} (begins : lineBegins previous = true)
    (text rest : List Char) : isHeadless previous text rest = isHeadless none text rest := by
  cases text with
  | nil => rfl
  | cons char text => rw [isHeadless, isHeadless, begins, show lineBegins none = true from rfl]

theorem segments_headless {previous : Option Char} {text rest : List Char}
    (headless : isHeadless previous text rest = true) :
    segments (.definition definitionHeads) previous (text ++ rest) =
      text.map .kept ++ segments (.definition definitionHeads) (lastAfter previous text) rest := by
  induction text generalizing previous with
  | nil => rfl
  | cons char text induction =>
      rw [isHeadless, Bool.and_eq_true, Bool.not_eq_true', Bool.and_eq_false_iff] at headless
      have missing : Pattern.after? (.definition definitionHeads) previous (char :: text ++ rest) =
          none := by
        unfold Pattern.after? afterDefinition?
        rcases headless.1 with within | none
        · simp only [within, Bool.false_eq_true, if_false]
        · rw [Option.isSome_eq_false_iff, Option.isNone_iff_eq_none] at none
          simp only [none, Option.bind_none, Option.map_none, ite_self]
      rw [List.cons_append] at missing ⊢
      rw [segments_of_none missing, induction headless.2, lastAfter_cons]
      rfl

def Block.segments : Block → List Segment
  | .defines definition => [.found definition.text]
  | .other text _ => text.map .kept

theorem Definition.getLast?_text (definition : Definition) :
    definition.text.getLast? = some '\n' := by
  unfold Definition.text Definition.ending
  rw [List.getLast?_append, List.getLast?_append, List.getLast?_cons, List.getLast?_append]
  rcases definition.breaks with breaks | breaks
  · rw [breaks]
    rfl
  · rw [breaks]
    rfl

theorem Block.getLast?_text (block : Block) : block.text.getLast? = some '\n' := by
  cases block with
  | defines definition => exact definition.getLast?_text
  | other text ends => exact ends

theorem segments_textOf {blocks : List Block} (within : beginWithin blocks = true)
    {previous : Option Char} (begins : lineBegins previous = true) :
    segments (.definition definitionHeads) previous (textOf blocks) =
      blocks.flatMap Block.segments := by
  induction blocks generalizing previous with
  | nil => exact segments_nil _ _
  | cons block blocks induction =>
      have ended : lineBegins block.text.getLast? = true := by rw [block.getLast?_text]; rfl
      have solid : block.text ≠ [] := by
        intro empty
        have last := block.getLast?_text
        rw [empty] at last
        cases last
      rw [List.flatMap_cons]
      cases block with
      | defines definition =>
          have after : Pattern.after? (.definition definitionHeads) previous
              (definition.text ++ textOf blocks) = some (textOf blocks) := by
            unfold Pattern.after?
            simp only [begins, if_true]
            exact definition.afterDefinition?_text _
          have found := segments_of_after solid after
          rw [induction within ended] at found
          exact found
      | other text ends =>
          rw [beginWithin, Bool.and_eq_true] at within
          have headless : isHeadless previous text (textOf blocks) = true := by
            rw [isHeadless_of_lineBegins begins]
            exact within.1
          have ended : lineBegins text.getLast? = true := ended
          have kept := segments_headless headless
          rw [lastAfter_of_ne_nil (show text ≠ [] from solid), induction within.2 ended] at kept
          exact kept

theorem flatMap_segments (blocks : List Block) (replacement : List Char) :
    (blocks.flatMap Block.segments).filterMap Segment.found? =
        (blocks.filterMap Block.definition?).map Definition.text ∧
      (replacement = [] → (blocks.flatMap Block.segments).flatMap (Segment.replaced replacement) =
        textOf (blocks.filter (·.definition?.isNone))) := by
  induction blocks with
  | nil => exact ⟨rfl, fun _ => rfl⟩
  | cons block blocks induction =>
      rw [List.flatMap_cons, List.filterMap_append, List.flatMap_append, induction.1]
      cases block with
      | defines definition =>
          refine ⟨rfl, fun empty => ?_⟩
          rw [induction.2 empty, empty]
          rfl
      | other text ends =>
          have none : (text.map Segment.kept).filterMap Segment.found? = [] := by
            rw [List.filterMap_map, List.filterMap_eq_nil_iff]
            exact fun char among => rfl
          refine ⟨congrArg (· ++ _) none, fun empty => ?_⟩
          rw [induction.2 empty, Block.segments, flatMap_replaced_map_kept]
          rfl

/-- Of a script of definitions and other blocks, in which definitions begin nowhere else, exactly
the other blocks are left, and the record is of the definitions, one by one. -/
theorem removeFunctions_blocks (blocks : List Block) (within : beginWithin blocks = true) :
    (Adaptation.apply { script := textOf blocks } .removeFunctions).script =
        textOf (blocks.filter (·.definition?.isNone)) ∧
      Rule.removeFunctions.findings (textOf blocks) =
        (blocks.filterMap Block.definition?).map Definition.text ∧
      (Adaptation.apply { script := textOf blocks } .removeFunctions).changes =
        (if blocks.filterMap Block.definition? = [] then []
        else [⟨.removeFunctions, (blocks.filterMap Block.definition?).map Definition.text⟩]) ∧
      ∀ change ∈ (Adaptation.apply { script := textOf blocks } .removeFunctions).changes,
        change.found.length = blocks.countP (·.definition?.isSome) := by
  have cut : segments Rule.removeFunctions.pattern none (textOf blocks) =
      blocks.flatMap Block.segments :=
    segments_textOf within rfl
  have parts := flatMap_segments blocks Rule.removeFunctions.replacement.toList
  have found : Rule.removeFunctions.findings (textOf blocks) =
      (blocks.filterMap Block.definition?).map Definition.text := by
    rw [Rule.findings, cut, parts.1]
  have recorded : (Adaptation.apply { script := textOf blocks } .removeFunctions).changes =
      if blocks.filterMap Block.definition? = [] then []
      else [⟨.removeFunctions, (blocks.filterMap Block.definition?).map Definition.text⟩] := by
    rw [Adaptation.changes_apply, found]
    simp only [List.map_eq_nil_iff, List.nil_append]
  refine ⟨?_, found, recorded, fun change among => ?_⟩
  · rw [Adaptation.script_apply, Rule.apply, cut]
    exact parts.2 rfl
  · rw [recorded] at among
    split at among
    · cases among
    · cases List.mem_singleton.mp among
      rw [List.length_map, List.length_filterMap_eq_countP]

/-! ## An example -/

namespace DefinitionExample

def setup : Definition where
  head := "CREATE OR REPLACE\n  FUNCTION".toList
  header := " setup() RETURNS void AS ".toList
  name := "outer".toList
  body := ("\nBEGIN\n    EXECUTE $$GRANT SELECT ON pages TO app$$;\n"
    ++ "CREATE FUNCTION inner_one() AS $$ SELECT 1; $$;\nEND;\n").toList
  trailer := " LANGUAGE plpgsql".toList
  blanks := []
  lineBreak := ['\n']
  begins := by decide +kernel
  plain := by decide +kernel
  unquoted := by decide +kernel
  named := by decide +kernel
  untagged := (congrArg (occursIn _) toList_ofList_append).trans (by decide +kernel)
  unended := by decide +kernel
  blank := rfl
  breaks := .inl rfl

def price : Definition where
  head := "  create procedure".toList
  header := " price() ".toList
  name := []
  body := " SELECT '1$".toList
  trailer := []
  blanks := " \t".toList
  lineBreak := ['\r', '\n']
  begins := by decide +kernel
  plain := by decide +kernel
  unquoted := by decide +kernel
  named := by decide +kernel
  untagged := by decide +kernel
  unended := by decide +kernel
  blank := rfl
  breaks := .inr rfl

def pages : Block :=
  .other "CREATE TABLE pages (id uuid);\n".toList rfl

def rights : Block :=
  .other "GRANT SELECT ON pages TO app;\n".toList rfl

end DefinitionExample

open DefinitionExample in
theorem removeFunctions_blocks_pages :
    beginWithin [pages, .defines setup, .defines price, rights] = true ∧
      (Adaptation.apply { script := textOf [pages, .defines setup, .defines price, rights] }
        .removeFunctions).script = textOf [pages, rights] ∧
      (Adaptation.apply { script := textOf [pages, .defines setup, .defines price, rights] }
        .removeFunctions).changes = [⟨.removeFunctions, [setup.text, price.text]⟩] := by
  have within : beginWithin [pages, .defines setup, .defines price, rights] = true := by
    decide +kernel
  have done := removeFunctions_blocks _ within
  exact ⟨within, done.1, done.2.2.1⟩

end SchemaDdl.Script
