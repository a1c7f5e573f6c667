import SchemaDdl.Proofs.Script.Heads
import SchemaDdl.Proofs.Script.Shrinking

/-!
# Definitions by their offsets

A second way to find definitions, which searches a script for heads first and then follows each of
them to the end of its statement by counting bytes. It never splits a character, and it finds the
same pieces as the first way, which reads the script once from its beginning to its end.
-/

namespace SchemaDdl.Script

open Text

/-! ## Searching -/

def bytesOf (text : List Char) : List UInt8 :=
  text.flatMap String.utf8EncodeChar

def offsetOf? (needle : List Char) : List Char → Option Nat
  | [] => (after? needle []).map fun _ => 0
  | char :: text =>
      if (after? needle (char :: text)).isSome then some 0
      else (offsetOf? needle text).map (char.utf8Size + ·)

def quoteByte : UInt8 := 39

/-- The number of bytes up to and including the quote that closes a quoted text; a doubled quote
stands for one. -/
def closingQuoteSize? : List UInt8 → Option Nat
  | [] => none
  | [byte] => if byte = quoteByte then some 1 else none
  | byte :: next :: bytes =>
      if byte = quoteByte then
        if next = quoteByte then (closingQuoteSize? bytes).map (2 + ·) else some 1
      else
        (closingQuoteSize? (next :: bytes)).map (1 + ·)

/-- The number of bytes up to and including what closes a body, behind the mark that opens it. -/
def bodySize? (mark body : List Char) : Option Nat :=
  if mark.head? = some '$' then (offsetOf? mark body).map (· + byteSize mark)
  else closingQuoteSize? (bytesOf body)

def afterMark? (previous : Option Char) (text : List Char) : Option (List Char) :=
  ((dollarTag? text).map Prod.snd).or
    (if wordBegins previous then afterOpeningQuote? text else none)

def markSpan? : (previous : Option Char) → (offset : Nat) → List Char → Option Span
  | _, _, [] => none
  | previous, offset, char :: text =>
      match afterMark? previous (char :: text) with
      | some body => some ⟨offset, offset + (byteSize (char :: text) - byteSize body)⟩
      | none => markSpan? (some char) (offset + char.utf8Size) text

/-- The number of bytes of the blanks at the beginning and of the end of the line, if it is behind
them. -/
def lineEndSize (text : List Char) : Nat :=
  let trimmed := text.dropWhile isIndent
  let blanks := byteSize text - byteSize trimmed
  match trimmed with
  | '\r' :: '\n' :: _ => blanks + 2
  | '\n' :: _ => blanks + 1
  | _ => blanks

def ended {α : Type} (result : Option α) : OptionT Option α :=
  OptionT.mk (some result)

/-- The end of the statement with a quoted body whose head ends at an offset, behind the semicolon
after the body and the rest of that line. The search itself fails where an offset at which it
splits a text is none of the text. -/
def statementEnd? (script : List Char) (start : Nat) : OptionT Option Nat := do
  let rest ← behind? start script
  let span ← ended (markSpan? none 0 rest)
  let before ← slice? ⟨0, span.start⟩ rest
  guard (';' ∉ before)
  let mark ← slice? span rest
  let body ← behind? span.stop rest
  let size ← ended (bodySize? mark body)
  let close := span.stop + size
  let left ← behind? close rest
  let semicolon ← ended (offsetOf? [';'] left)
  let tail ← behind? (close + semicolon + 1) rest
  return start + (close + semicolon) + 1 + lineEndSize tail

/-- The places of the heads in a text at some offset, of which some characters at the beginning
belong to a head before them. -/
def headSpans (heads : List Phrase) :
    (passed : Nat) → (previous : Option Char) → (offset : Nat) → List Char → List Span
  | _, _, _, [] => []
  | passed + 1, _, offset, char :: text =>
      headSpans heads passed (some char) (offset + char.utf8Size) text
  | 0, previous, offset, char :: text =>
      match if lineBegins previous then afterHead? heads (char :: text) else none with
      | some rest =>
          ⟨offset, offset + (byteSize (char :: text) - byteSize rest)⟩ ::
            headSpans heads (text.length - rest.length) (some char) (offset + char.utf8Size) text
      | none => headSpans heads 0 (some char) (offset + char.utf8Size) text

/-- The places of the statements that begin with some heads and have a body. A head in front of the
cursor stands within the statement before it. -/
def definitionSpans? (script : List Char) : (cursor : Nat) → List Span → Option (List Span)
  | _, [] => some []
  | cursor, head :: heads =>
      if head.start < cursor then definitionSpans? script cursor heads
      else
        (statementEnd? script head.stop).run.bind fun
          | some stop => (definitionSpans? script stop heads).map (⟨head.start, stop⟩ :: ·)
          | none => definitionSpans? script cursor heads

/-! ## Quotes and bytes -/

variable {text rest : List Char}

theorem quoteByte_mem_utf8EncodeChar {char : Char}
    (among : quoteByte ∈ String.utf8EncodeChar char) : char = '\'' := by
  unfold String.utf8EncodeChar quoteByte at among
  dsimp only at among
  have same : ∀ number : Nat, 39 = UInt8.ofNat number → number % 256 = 39 := by
    intro number equal
    have numbers := congrArg UInt8.toNat equal
    rw [UInt8.toNat_ofNat'] at numbers
    exact numbers.symm
  split at among
  · have number := same _ (List.mem_singleton.mp among)
    have value : char.toNat = 39 := by
      unfold Char.toNat
      omega
    exact Char.toNat_inj.mp value
  · split at among
    · simp only [List.mem_cons, List.not_mem_nil, or_false] at among
      rcases among with equal | equal <;> · have := same _ equal; omega
    · split at among
      · simp only [List.mem_cons, List.not_mem_nil, or_false] at among
        rcases among with equal | equal | equal <;> · have := same _ equal; omega
      · simp only [List.mem_cons, List.not_mem_nil, or_false] at among
        rcases among with equal | equal | equal | equal <;> · have := same _ equal; omega

theorem closingQuoteSize?_append {bytes : List UInt8} (plain : quoteByte ∉ bytes)
    (more : List UInt8) :
    closingQuoteSize? (bytes ++ more) = (closingQuoteSize? more).map (bytes.length + ·) := by
  induction bytes with
  | nil =>
      rw [List.nil_append]
      cases closingQuoteSize? more with
      | none => rfl
      | some size => exact congrArg some (Nat.zero_add size).symm
  | cons byte bytes induction =>
      rw [List.mem_cons, not_or] at plain
      have step : closingQuoteSize? (byte :: (bytes ++ more)) =
          (closingQuoteSize? (bytes ++ more)).map (1 + ·) := by
        cases bytes ++ more with
        | nil => exact if_neg (Ne.symm plain.1)
        | cons next others => exact if_neg (Ne.symm plain.1)
      rw [List.cons_append, step, induction plain.2, Option.map_map]
      congr 1
      funext size
      rw [List.length_cons, Function.comp_apply, Nat.add_comm bytes.length 1, Nat.add_assoc]

theorem closingQuoteSize?_bytesOf (text : List Char) :
    closingQuoteSize? (bytesOf text) =
      (afterClosingQuote? text).map fun left => byteSize text - byteSize left := by
  have quoted : ∀ text, bytesOf ('\'' :: text) = quoteByte :: bytesOf text := fun _ => rfl
  have size : ∀ text, byteSize ('\'' :: text) = 1 + byteSize text := byteSize_cons '\''
  fun_induction afterClosingQuote? text with
  | case1 => rfl
  | case2 text induction =>
      rw [quoted, quoted, closingQuoteSize?, if_pos rfl, if_pos rfl, induction, Option.map_map]
      apply Option.map_congr
      intro left closed
      have long := byteSize_le_of_suffix (suffix_of_afterClosingQuote? closed)
      rw [Function.comp_apply, size, size]
      omega
  | case3 text single =>
      rw [quoted, Option.map_some, size, Nat.add_sub_cancel]
      cases read : bytesOf text with
      | nil => rfl
      | cons next bytes =>
          refine (if_pos rfl).trans (if_neg ?_)
          rintro rfl
          cases text with
          | nil => cases read
          | cons char text =>
              have among : quoteByte ∈ String.utf8EncodeChar char := by
                cases encoded : String.utf8EncodeChar char with
                | nil => exact absurd encoded String.utf8EncodeChar_ne_nil
                | cons byte others =>
                    rw [bytesOf, List.flatMap_cons, encoded] at read
                    rw [(List.cons.inj read).1]
                    exact List.mem_cons_self
              exact single text (by rw [quoteByte_mem_utf8EncodeChar among])
  | case4 char text _ solid induction =>
      have plain : quoteByte ∉ String.utf8EncodeChar char :=
        fun among => solid (quoteByte_mem_utf8EncodeChar among)
      rw [bytesOf, List.flatMap_cons, closingQuoteSize?_append plain, ← bytesOf, induction,
        Option.map_map, String.length_utf8EncodeChar]
      apply Option.map_congr
      intro left closed
      have long := byteSize_le_of_suffix (suffix_of_afterClosingQuote? closed)
      rw [Function.comp_apply, byteSize_cons]
      omega

/-! ## Bodies -/

theorem offsetOf?_spec (needle text : List Char) :
    afterOccurrence? needle text = none ∧ offsetOf? needle text = none ∨
      ∃ front left, text = front ++ (needle ++ left) ∧
        afterOccurrence? needle text = some left ∧
        offsetOf? needle text = some (byteSize front) := by
  induction text with
  | nil =>
      rw [afterOccurrence?, offsetOf?]
      cases here : after? needle [] with
      | none => exact .inl ⟨rfl, rfl⟩
      | some left =>
          have whole := after?_eq_some_iff.mp here
          exact .inr ⟨[], left, whole, rfl, rfl⟩
  | cons char text induction =>
      rw [afterOccurrence?, offsetOf?]
      cases here : after? needle (char :: text) with
      | some left =>
          have whole := after?_eq_some_iff.mp here
          exact .inr ⟨[], left, whole, rfl, rfl⟩
      | none =>
          rw [Option.none_or]
          rcases induction with ⟨missing, none⟩ | ⟨front, left, whole, found, offset⟩
          · exact .inl ⟨missing, by rw [none]; rfl⟩
          · refine .inr ⟨char :: front, left, by rw [whole, List.cons_append], found, ?_⟩
            rw [offset]
            exact congrArg some (byteSize_cons char front).symm

def afterClose? (mark body : List Char) : Option (List Char) :=
  if mark.head? = some '$' then afterOccurrence? mark body else afterClosingQuote? body

theorem bodySize?_spec (mark body : List Char) :
    afterClose? mark body = none ∧ bodySize? mark body = none ∨
      ∃ inner left, body = inner ++ left ∧ afterClose? mark body = some left ∧
        bodySize? mark body = some (byteSize inner) := by
  unfold afterClose? bodySize?
  split
  · rcases offsetOf?_spec mark body with ⟨missing, none⟩ | ⟨front, left, whole, found, offset⟩
    · exact .inl ⟨missing, by rw [none]; rfl⟩
    · refine .inr ⟨front ++ mark, left, by rw [whole, List.append_assoc], found, ?_⟩
      rw [offset, byteSize_append]
      rfl
  · rw [closingQuoteSize?_bytesOf]
    cases closed : afterClosingQuote? body with
    | none => exact .inl ⟨rfl, rfl⟩
    | some left =>
        rcases suffix_of_afterClosingQuote? closed with ⟨inner, rfl⟩
        refine .inr ⟨inner, left, rfl, rfl, ?_⟩
        rw [Option.map_some, byteSize_append, Nat.add_sub_cancel]

theorem not_dollar_of_afterOpeningQuote? {mark body : List Char} (whole : mark ++ body = text)
    (opened : afterOpeningQuote? text = some body) : mark.head? ≠ some '$' := by
  intro dollar
  cases mark with
  | nil => cases dollar
  | cons char mark =>
      cases dollar
      rw [← whole] at opened
      cases opened

theorem markSpan?_spec (previous : Option Char) (offset : Nat) (text : List Char) :
    afterBody? previous text = none ∧ markSpan? previous offset text = none ∨
      ∃ before mark body, text = before ++ (mark ++ body) ∧
        afterBody? previous text = (if ';' ∈ before then none else afterClose? mark body) ∧
        markSpan? previous offset text =
          some ⟨offset + byteSize before, offset + byteSize before + byteSize mark⟩ := by
  induction text generalizing previous offset with
  | nil => exact .inl ⟨rfl, rfl⟩
  | cons char text induction =>
      rw [afterBody?, markSpan?, afterMark?]
      cases tagged : dollarTag? (char :: text) with
      | some parts =>
          rcases parts with ⟨tag, body⟩
          rcases dollarTag?_spec tagged with ⟨name, named, _, whole⟩
          refine .inr ⟨[], tag, body, whole, ?_, ?_⟩
          · rw [afterClose?, named]
            rfl
          · rw [whole, byteSize_append]
            simp [byteSize]
      | none =>
          cases opened : if wordBegins previous then
              afterOpeningQuote? (char :: text) else none with
          | some body =>
              rcases Option.ite_none_right_eq_some.mp opened with ⟨_, opened⟩
              rcases suffix_of_afterOpeningQuote? opened with ⟨mark, whole⟩
              have quoted : mark.head? ≠ some '$' := not_dollar_of_afterOpeningQuote? whole opened
              refine .inr ⟨[], mark, body, whole.symm, ?_, ?_⟩
              · rw [afterClose?, if_neg quoted]
                rfl
              · rw [← whole, byteSize_append]
                simp [byteSize]
          | none =>
              simp only [Option.map_none, Option.none_or]
              rcases induction (some char) (offset + char.utf8Size) with
                ⟨unclosed, none⟩ | ⟨before, mark, body, whole, found, place⟩
              · exact .inl ⟨by rw [unclosed, ite_self], none⟩
              · refine .inr ⟨char :: before, mark, body, by rw [whole, List.cons_append], ?_, ?_⟩
                · rcases Decidable.em (char = ';') with rfl | other
                  · rw [if_pos rfl, if_pos List.mem_cons_self]
                  · rw [if_neg other, found]
                    simp only [List.mem_cons, Ne.symm other, false_or]
                · rw [place, byteSize_cons, Nat.add_assoc offset]

/-! ## Statements -/

theorem lineEndSize_add (text : List Char) :
    lineEndSize text + byteSize (afterLineEnd text) = byteSize text := by
  have long := byteSize_le_of_suffix (List.dropWhile_suffix isIndent (l := text))
  have return_ : '\r'.utf8Size = 1 := by decide
  have line : '\n'.utf8Size = 1 := by decide
  unfold lineEndSize afterLineEnd
  split
  · rename_i rest behind
    rw [behind, byteSize_cons, byteSize_cons, return_, line] at long
    simp only [behind, byteSize_cons, return_, line]
    omega
  · rename_i rest behind
    rw [behind, byteSize_cons, line] at long
    simp only [behind, byteSize_cons, line]
    omega
  · rename_i rest carriage newline
    simp only
    exact Nat.sub_add_cancel long

def afterQuoted? (text : List Char) : Option (List Char) :=
  ((afterBody? none text).bind (splitFirst ';')).map fun (_, rest) => afterLineEnd rest

theorem suffix_of_afterQuoted? (found : afterQuoted? text = some rest) : rest <:+ text := by
  rcases Option.map_eq_some_iff.mp found with ⟨⟨inside, tail⟩, split, rfl⟩
  rcases Option.bind_eq_some_iff.mp split with ⟨closed, body, split⟩
  have left : tail <:+ closed := by
    rw [eq_of_splitFirst split]
    exact List.suffix_append_of_suffix (List.suffix_cons _ _)
  exact (suffix_afterLineEnd tail).trans (left.trans (suffix_of_afterBody? body))

theorem afterDefinition?_eq (heads : List Phrase) (text : List Char) :
    afterDefinition? heads text = (afterHead? heads text).bind afterQuoted? := by
  unfold afterDefinition? afterQuoted?
  cases afterHead? heads text <;> rfl

theorem offsetOf?_singleton (separator : Char) (text : List Char) :
    offsetOf? [separator] text =
      (splitFirst separator text).map fun (inside, _) => byteSize inside := by
  induction text with
  | nil => rfl
  | cons char text induction =>
      rw [offsetOf?, splitFirst, after?]
      rcases Decidable.em (char = separator) with rfl | other
      · simp only [if_true, after?, Option.isSome_some]
        rfl
      · rw [if_neg (Ne.symm other), if_neg other, induction, Option.map_map, Option.map_map]
        simp only [Option.isSome_none, Bool.false_eq_true, if_false]
        refine Option.map_congr fun parts _ => ?_
        exact (byteSize_cons char parts.1).symm

section Search

variable {α β : Type} (value : α) (next : α → OptionT Option β)

theorem lift_bind : (liftM (some value) : OptionT Option α) >>= next = next value :=
  rfl

theorem ended_bind : ended (some value) >>= next = next value :=
  rfl

theorem run_ended_bind : (ended none >>= next).run = some none :=
  rfl

theorem guard_bind {condition : Prop} [Decidable condition] (holds : condition)
    (next : PUnit → OptionT Option β) : guard condition >>= next = next ⟨⟩ := by
  rw [guard, if_pos holds]
  rfl

theorem run_guard_bind {condition : Prop} [Decidable condition] (fails : ¬ condition)
    (next : PUnit → OptionT Option β) : (guard condition >>= next).run = some none := by
  rw [guard, if_neg fails]
  rfl

end Search

theorem statementEnd?_append (front rest : List Char) :
    (statementEnd? (front ++ rest) (byteSize front)).run =
      some ((afterQuoted? rest).map fun left =>
        byteSize front + (byteSize rest - byteSize left)) := by
  unfold statementEnd? afterQuoted?
  rw [behind?_append, lift_bind]
  rcases markSpan?_spec none 0 rest with ⟨unclosed, none⟩ | ⟨before, mark, body, rfl, closed, span⟩
  · rw [none, run_ended_bind, unclosed]
    rfl
  rw [Nat.zero_add] at span
  have first := slice?_append [] before (mark ++ body)
  rw [show byteSize [] = 0 from rfl, Nat.zero_add, List.nil_append] at first
  rw [span, ended_bind, first, lift_bind, closed]
  rcases Decidable.em (';' ∈ before) with semicolon | plain
  · rw [run_guard_bind (not_not_intro semicolon), if_pos semicolon]
    rfl
  have opened := behind?_append (before ++ mark) body
  rw [byteSize_append, List.append_assoc] at opened
  rw [guard_bind plain, if_neg plain, slice?_append, lift_bind, opened, lift_bind]
  rcases bodySize?_spec mark body with ⟨unclosed, none⟩ | ⟨inner, left, rfl, closed, size⟩
  · rw [none, run_ended_bind, unclosed]
    rfl
  have behind := behind?_append (before ++ (mark ++ inner)) left
  simp only [byteSize_append, List.append_assoc] at behind
  rw [size, ended_bind, closed, Option.bind_some]
  dsimp only
  rw [Nat.add_assoc (byteSize before), behind, lift_bind, offsetOf?_singleton]
  cases split : splitFirst ';' left with
  | none => rfl
  | some parts =>
      rcases parts with ⟨inside, tail⟩
      have whole := eq_of_splitFirst split
      have semicolon : byteSize [';'] = 1 := by decide
      have last := behind?_append (before ++ (mark ++ (inner ++ (inside ++ [';'])))) tail
      simp only [byteSize_append, List.append_assoc, List.singleton_append, semicolon, ← whole]
        at last
      have lineEnd := lineEndSize_add tail
      have long := congrArg byteSize whole
      rw [byteSize_append, ← List.singleton_append, byteSize_append, semicolon] at long
      rw [Option.map_some, ended_bind]
      simp only [Option.map_some, byteSize_append, ← Nat.add_assoc] at last ⊢
      rw [last, lift_bind]
      refine congrArg (some ∘ some) ?_
      omega

/-! ## Heads -/

variable {previous : Option Char}

theorem headSpans_of_none {char : Char}
    (missing : (if lineBegins previous then afterHead? definitionHeads (char :: text) else none) =
      none) (offset : Nat) :
    headSpans definitionHeads 0 previous offset (char :: text) =
      headSpans definitionHeads 0 (some char) (offset + char.utf8Size) text := by
  rw [headSpans, missing]

theorem headSpans_append {piece : List Char} (headless : isHeadless previous piece rest = true)
    (offset : Nat) :
    headSpans definitionHeads 0 previous offset (piece ++ rest) =
      headSpans definitionHeads 0 (lastAfter previous piece) (offset + byteSize piece) rest := by
  induction piece generalizing previous offset with
  | nil => rfl
  | cons char piece induction =>
      rw [isHeadless, Bool.and_eq_true, Bool.not_eq_true'] at headless
      have missing : (if lineBegins previous then
          afterHead? definitionHeads (char :: piece ++ rest) else none) = none := by
        cases begins : lineBegins previous with
        | false => rfl
        | true =>
            rw [begins, Bool.true_and, Option.isSome_eq_false_iff, Option.isNone_iff_eq_none]
              at headless
            rw [if_pos rfl, headless.1]
      rw [List.cons_append] at missing ⊢
      rw [headSpans_of_none missing, induction headless.2, lastAfter_cons, Nat.add_assoc,
        byteSize_cons]

theorem headSpans_passed (previous : Option Char) (piece rest : List Char) (offset : Nat) :
    headSpans definitionHeads piece.length previous offset (piece ++ rest) =
      headSpans definitionHeads 0 (lastAfter previous piece) (offset + byteSize piece) rest := by
  induction piece generalizing previous offset with
  | nil => rfl
  | cons char piece induction =>
      rw [List.length_cons, List.cons_append, headSpans, induction, lastAfter_cons, Nat.add_assoc,
        byteSize_cons]

theorem headSpans_of_some {char : Char} (begins : lineBegins previous = true)
    (found : afterHead? definitionHeads (char :: text) = some rest) (offset : Nat) :
    headSpans definitionHeads 0 previous offset (char :: text) =
      ⟨offset, offset + (byteSize (char :: text) - byteSize rest)⟩ ::
        headSpans definitionHeads 0 (some char) (offset + char.utf8Size) text := by
  rcases exists_headless_of_afterHead? found with ⟨piece, whole, headless⟩
  rw [headSpans, if_pos begins, found]
  dsimp only
  rw [whole, List.length_append, Nat.add_sub_cancel, headSpans_passed, headSpans_append headless]

/-! ## Definitions -/

/-- The places of the pieces among segments that begin at an offset. -/
def spans : (offset : Nat) → List Segment → List Span
  | _, [] => []
  | offset, .kept char :: segments => spans (offset + char.utf8Size) segments
  | offset, .found text :: segments =>
      ⟨offset, offset + byteSize text⟩ :: spans (offset + byteSize text) segments

theorem definitionSpans?_passed (script piece rest : List Char) (previous : Option Char)
    (offset : Nat) :
    definitionSpans? script (offset + byteSize piece)
        (headSpans definitionHeads 0 previous offset (piece ++ rest)) =
      definitionSpans? script (offset + byteSize piece)
        (headSpans definitionHeads 0 (lastAfter previous piece) (offset + byteSize piece)
          rest) := by
  induction piece generalizing previous offset with
  | nil => rfl
  | cons char piece induction =>
      have size : offset + byteSize (char :: piece) = offset + char.utf8Size + byteSize piece := by
        rw [Nat.add_assoc, byteSize_cons]
      have positive := char.utf8Size_pos
      rw [size, lastAfter_cons, List.cons_append]
      cases found : if lineBegins previous then
          afterHead? definitionHeads (char :: (piece ++ rest)) else none with
      | none =>
          rw [headSpans_of_none found]
          exact induction (some char) (offset + char.utf8Size)
      | some after =>
          rcases Option.ite_none_right_eq_some.mp found with ⟨begins, found⟩
          rw [headSpans_of_some begins found, definitionSpans?, if_pos (show offset < _ by omega)]
          exact induction (some char) (offset + char.utf8Size)

/-- A head behind the cursor either leads to the end of its statement, which is the next place for
the cursor, or is left out. -/
theorem definitionSpans?_of_head {char : Char} {cursor : Nat} {front : List Char}
    (behind : cursor ≤ byteSize front) (begins : lineBegins previous = true)
    (head : afterHead? definitionHeads (char :: text) = some rest) :
    definitionSpans? (front ++ char :: text) cursor
        (headSpans definitionHeads 0 previous (byteSize front) (char :: text)) =
      match afterQuoted? rest with
      | some left =>
          (definitionSpans? (front ++ char :: text)
              (byteSize front + (byteSize (char :: text) - byteSize left))
              (headSpans definitionHeads 0 (some char) (byteSize front + char.utf8Size) text)).map
            (⟨byteSize front, byteSize front + (byteSize (char :: text) - byteSize left)⟩ :: ·)
      | none =>
          definitionSpans? (front ++ char :: text) cursor
            (headSpans definitionHeads 0 (some char) (byteSize front + char.utf8Size) text) := by
  rcases suffix_of_afterHead? head with ⟨piece, whole⟩
  have size : byteSize (char :: text) = byteSize piece + byteSize rest := by
    rw [← whole, byteSize_append]
  have stop := statementEnd?_append (front ++ piece) rest
  rw [List.append_assoc, whole, byteSize_append] at stop
  rw [headSpans_of_some begins head, definitionSpans?, if_neg (Nat.not_lt.mpr behind), size,
    Nat.add_sub_cancel, stop]
  cases quoted : afterQuoted? rest with
  | none => rfl
  | some left =>
      have long := byteSize_le_of_suffix (suffix_of_afterQuoted? quoted)
      have place : byteSize front + byteSize piece + (byteSize rest - byteSize left) =
          byteSize front + (byteSize piece + byteSize rest - byteSize left) := by
        omega
      rw [Option.map_some, Option.bind_some, place]

theorem definitionSpans?_eq (front text : List Char) (previous : Option Char) {cursor : Nat}
    (behind : cursor ≤ byteSize front) :
    definitionSpans? (front ++ text) cursor
        (headSpans definitionHeads 0 previous (byteSize front) text) =
      some (spans (byteSize front) (segments (.definition definitionHeads) previous text)) := by
  have worded : Pattern.isWorded (.definition definitionHeads) = true := by decide +kernel
  fun_induction segments (.definition definitionHeads) previous text generalizing front cursor with
  | case1 => rfl
  | case2 previous char text length matched found induction =>
      have after := Pattern.after?_of_matchLength? worded matched
      rw [List.take_append_drop, List.drop_succ_cons] at after
      rcases Option.ite_none_right_eq_some.mp after with ⟨begins, definition⟩
      rw [afterDefinition?_eq] at definition
      rcases Option.bind_eq_some_iff.mp definition with ⟨rest, head, quoted⟩
      have both : found ++ text.drop length = char :: text :=
        congrArg (char :: ·) (List.take_append_drop length text)
      have size : byteSize (char :: text) - byteSize (text.drop length) = byteSize found := by
        rw [← both, byteSize_append, Nat.add_sub_cancel]
      -- The heads within the piece begin in front of the cursor that comes behind it.
      have passed := definitionSpans?_passed (front ++ char :: text) (text.take length)
        (text.drop length) (some char) (byteSize front + char.utf8Size)
      have ends : byteSize front + char.utf8Size + byteSize (text.take length) =
          byteSize front + byteSize found := by
        rw [Nat.add_assoc, ← byteSize_cons]
      rw [List.take_append_drop, ends, ← lastAfter_cons previous,
        lastAfter_of_ne_nil (List.cons_ne_nil _ _)] at passed
      have later := induction (front ++ found) (Nat.le_refl _)
      rw [List.append_assoc, both, byteSize_append] at later
      rw [definitionSpans?_of_head behind begins head, quoted]
      dsimp only
      rw [size, passed, later]
      rfl
  | case3 previous char text unmatched induction =>
      have missing := Pattern.after?_of_unmatched worded Nat.one_pos unmatched
      have size : byteSize (front ++ [char]) = byteSize front + char.utf8Size := by
        rw [byteSize_append, byteSize_cons]
        rfl
      have further : cursor ≤ byteSize (front ++ [char]) := by omega
      have later := induction (front ++ [char]) further
      rw [List.append_assoc, List.singleton_append, size] at later
      -- A head without the rest of a definition does not move the cursor.
      cases head : if lineBegins previous then
          afterHead? definitionHeads (char :: text) else none with
      | none => rw [headSpans_of_none head, later, spans]
      | some rest =>
          rcases Option.ite_none_right_eq_some.mp head with ⟨begins, head⟩
          rw [Pattern.after?, if_pos begins, afterDefinition?_eq, head, Option.bind_some] at missing
          rw [definitionSpans?_of_head behind begins head, missing]
          exact later

end SchemaDdl.Script
