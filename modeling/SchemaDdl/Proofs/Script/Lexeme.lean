import SchemaDdl.Proofs.Script.Reach

/-!
# Lexemes of scripts

A script read from left to right: characters that stand for themselves, and stretches that are set
apart by quotes, dollar tags or the marks of comments. Reading a text does not look beyond its end,
unless the end could be the beginning of a mark.
-/

namespace SchemaDdl.Script

open Text

inductive Quote where
  /-- A literal between single quotes. A doubled quote closes one and opens the next. -/
  | literal
  /-- An identifier between double quotes. -/
  | identifier
  /-- A body between two dollar tags. -/
  | body (tag : List Char)
  /-- A comment up to the end of its line. -/
  | lineComment
  | blockComment
deriving DecidableEq, Repr

/-- A part of a script: a character outside all quotes, or a stretch with its marks. -/
inductive Lexeme where
  | plain (char : Char)
  | quoted (quote : Quote) (text : List Char)
deriving DecidableEq, Repr

/-- The text of a lexeme. -/
def Lexeme.text : Lexeme → List Char
  | .plain char => [char]
  | .quoted _ text => text

def marks : List (List Char × Quote) :=
  [(['\''], .literal), (['"'], .identifier), (['-', '-'], .lineComment),
    (['/', '*'], .blockComment)]

def openQuote? (text : List Char) : Option (Quote × List Char) :=
  (marks.findSome? fun (mark, quote) => (after? mark text).map (quote, ·)).or
    ((dollarTag? text).map fun (tag, inside) => (.body tag, inside))

/-- What follows the mark that closes a comment, inside as many other comments as `depth` says and
behind a character that is not part of a mark. -/
def afterComment? (nests : Bool) :
    (depth : Nat) → (previous : Option Char) → List Char → Option (List Char)
  | _, _, [] => none
  | depth, previous, char :: text =>
      if previous = some '*' ∧ char = '/' then
        match depth with
        | 0 => some text
        | depth + 1 => afterComment? nests depth none text
      else if nests ∧ previous = some '/' ∧ char = '*' then
        afterComment? nests (depth + 1) none text
      else
        afterComment? nests depth (some char) text

/-- What follows a stretch, when it is closed; `nests` says whether comments may hold comments. The
end of a line does not belong to the comment before it. -/
def closeQuote? (nests : Bool) : Quote → List Char → Option (List Char)
  | .literal, text => afterOccurrence? ['\''] text
  | .identifier, text => afterOccurrence? ['"'] text
  | .body tag, text => afterOccurrence? tag text
  | .lineComment, text => some (text.dropWhile (· != '\n'))
  | .blockComment, text => afterComment? nests 0 none text

/-! ## Lengths -/

variable {nests : Bool} {quote : Quote} {text rest inside : List Char}

theorem length_lt_of_after? {mark : List Char} (nonempty : mark ≠ [])
    (found : after? mark text = some rest) : rest.length < text.length := by
  cases mark with
  | nil => exact absurd rfl nonempty
  | cons expected mark =>
      cases text with
      | nil => cases found
      | cons char text =>
          rw [after?] at found
          rcases Option.ite_none_right_eq_some.mp found with ⟨_, found⟩
          exact Nat.lt_succ_of_le (suffix_of_after? found).length_le

theorem marks_ne_nil {mark : List Char} (among : (mark, quote) ∈ marks) : mark ≠ [] := by
  have each : ∀ entry ∈ marks, entry.1 ≠ [] := by decide
  exact each _ among

theorem length_lt_of_openQuote? (opened : openQuote? text = some (quote, inside)) :
    inside.length < text.length := by
  rcases Option.or_eq_some_iff.mp opened with marked | ⟨_, tagged⟩
  · rcases List.exists_of_findSome?_eq_some marked with ⟨⟨mark, _⟩, among, found⟩
    rcases Option.map_eq_some_iff.mp found with ⟨_, found, equal⟩
    cases equal
    exact length_lt_of_after? (marks_ne_nil among) found
  · rcases Option.map_eq_some_iff.mp tagged with ⟨⟨tag, _⟩, found, equal⟩
    cases equal
    rcases dollarTag?_spec found with ⟨name, rfl, _, whole⟩
    rw [whole, List.length_append, List.length_cons]
    omega

theorem suffix_of_openQuote? (opened : openQuote? text = some (quote, inside)) :
    inside <:+ text := by
  rcases Option.or_eq_some_iff.mp opened with marked | ⟨_, tagged⟩
  · rcases List.exists_of_findSome?_eq_some marked with ⟨⟨mark, _⟩, _, found⟩
    rcases Option.map_eq_some_iff.mp found with ⟨_, found, equal⟩
    cases equal
    exact suffix_of_after? found
  · rcases Option.map_eq_some_iff.mp tagged with ⟨⟨tag, _⟩, found, equal⟩
    cases equal
    rcases dollarTag?_spec found with ⟨_, _, _, whole⟩
    rw [whole]
    exact List.suffix_append tag inside

theorem suffix_of_afterComment? {depth : Nat} {previous : Option Char}
    (closed : afterComment? nests depth previous text = some rest) : rest <:+ text := by
  fun_induction afterComment? nests depth previous text with
  | case1 => cases closed
  | case2 =>
      cases closed
      exact List.suffix_cons _ _
  | case3 _ _ _ _ _ induction => exact (induction closed).trans (List.suffix_cons _ _)
  | case4 _ _ _ _ _ _ induction => exact (induction closed).trans (List.suffix_cons _ _)
  | case5 _ _ _ _ _ _ induction => exact (induction closed).trans (List.suffix_cons _ _)

theorem suffix_of_closeQuote? (closed : closeQuote? nests quote text = some rest) :
    rest <:+ text := by
  cases quote with
  | literal => exact suffix_of_afterOccurrence? closed
  | identifier => exact suffix_of_afterOccurrence? closed
  | body tag => exact suffix_of_afterOccurrence? closed
  | lineComment =>
      cases closed
      exact List.dropWhile_suffix _
  | blockComment => exact suffix_of_afterComment? closed

/-! ## Reading -/

/-- The lexemes of a text. There are none when a stretch of it is not closed. -/
def lexemes? (nests : Bool) : List Char → Option (List Lexeme)
  | [] => some []
  | char :: text =>
      match _ : openQuote? (char :: text) with
      | none => (lexemes? nests text).map (.plain char :: ·)
      | some (quote, inside) =>
          match _ : closeQuote? nests quote inside with
          | none => none
          | some rest =>
              (lexemes? nests rest).map
                (.quoted quote ((char :: text).take (text.length + 1 - rest.length)) :: ·)
termination_by text => text.length
decreasing_by
  · exact Nat.lt_succ_self _
  · exact Nat.lt_of_le_of_lt (suffix_of_closeQuote? ‹_›).length_le (length_lt_of_openQuote? ‹_›)

example : (lexemes? true "a'b;c'--;\n;/*/**/;*/$x$;$x$".toList).map List.length = some 7 := by
  decide +kernel

theorem lexemes?_nil : lexemes? nests [] = some [] := by
  rw [lexemes?]

theorem lexemes?_plain {char : Char} (unopened : openQuote? (char :: text) = none) :
    lexemes? nests (char :: text) = (lexemes? nests text).map (.plain char :: ·) := by
  rw [lexemes?]
  split
  · rfl
  · rename_i opened
    rw [unopened] at opened
    cases opened

theorem lexemes?_quoted (opened : openQuote? text = some (quote, inside))
    (closed : closeQuote? nests quote inside = some rest) :
    lexemes? nests text =
      (lexemes? nests rest).map (.quoted quote (text.take (text.length - rest.length)) :: ·) := by
  cases text with
  | nil =>
      have shorter := length_lt_of_openQuote? opened
      exact absurd shorter (Nat.not_lt_zero _)
  | cons char text =>
      rw [lexemes?]
      split
      · rename_i unopened
        rw [opened] at unopened
        cases unopened
      · rename_i again
        rw [opened] at again
        cases again
        split
        · rename_i unclosed
          rw [closed] at unclosed
          cases unclosed
        · rename_i again
          rw [closed] at again
          cases again
          rfl

/-! ## Where reading can stop -/

def isLoose (char : Char) : Bool :=
  !isTagPart char && char != '$' && char != '-' && char != '/'

def isBarrier (text : List Char) : Bool :=
  (text.dropWhile isTagPart).head?.all fun char => char != '$' && char != '-' && char != '*'

def Apart (front rest : List Char) : Prop :=
  front.getLast?.all isLoose = true ∨ isBarrier rest = true

theorem Apart.of_cons {char : Char} (apart : Apart (char :: text) rest) : Apart text rest := by
  cases text with
  | nil => exact .inl rfl
  | cons next text =>
      unfold Apart at apart ⊢
      rw [List.getLast?_cons_cons] at apart
      exact apart

theorem Apart.of_suffix {front : List Char} (apart : Apart text rest) (suffix : front <:+ text) :
    Apart front rest := by
  rcases suffix with ⟨before, rfl⟩
  induction before with
  | nil => exact apart
  | cons char before induction => exact induction (Apart.of_cons apart)

theorem isBarrier_head? (barrier : isBarrier rest = true) :
    rest.head? ≠ some '-' ∧ rest.head? ≠ some '*' := by
  cases rest with
  | nil => exact ⟨nofun, nofun⟩
  | cons char rest =>
      rw [List.head?_cons, ne_eq, ne_eq, Option.some_inj, Option.some_inj]
      constructor
      · rintro rfl
        cases barrier
      · rintro rfl
        cases barrier

theorem after?_append_of_le {mark front : List Char} (long : mark.length ≤ front.length) :
    after? mark (front ++ rest) = (after? mark front).map (· ++ rest) := by
  induction mark generalizing front with
  | nil => rfl
  | cons expected mark induction =>
      cases front with
      | nil => exact absurd long (Nat.not_succ_le_zero _)
      | cons char front =>
          rw [List.cons_append, after?, after?]
          split
          · exact induction (Nat.le_of_succ_le_succ long)
          · rfl

theorem after?_pair {char first second : Char}
    (other : char = first → rest.head? ≠ some second) :
    after? [first, second] ([char] ++ rest) = (after? [first, second] [char]).map (· ++ rest) := by
  rw [List.cons_append, after?, after?]
  split
  · rename_i same
    have other := other same.symm
    cases rest with
    | nil => rfl
    | cons next rest => exact if_neg fun same => other (by rw [same]; rfl)
  · rfl

theorem Apart.isBarrier {char : Char} (apart : Apart [char] rest) (tight : isLoose char = false) :
    isBarrier rest = true := by
  rcases apart with loose | barrier
  · rw [List.getLast?_singleton, Option.all_some, tight] at loose
    cases loose
  · exact barrier

theorem after?_mark_append {front mark : List Char} (among : (mark, quote) ∈ marks)
    (nonempty : front ≠ []) (apart : Apart front rest) :
    after? mark (front ++ rest) = (after? mark front).map (· ++ rest) := by
  have short : ∀ entry ∈ marks, entry.1.length ≤ 2 := by decide
  cases front with
  | nil => exact absurd rfl nonempty
  | cons char front =>
      cases front with
      | cons next front =>
          apply after?_append_of_le
          exact Nat.le_trans (short _ among) (Nat.le_add_left 2 _)
      | nil =>
          simp only [marks, List.mem_cons, Prod.mk.injEq, List.not_mem_nil, or_false] at among
          rcases among with ⟨rfl, _⟩ | ⟨rfl, _⟩ | ⟨rfl, _⟩ | ⟨rfl, _⟩
          · exact after?_append_of_le (Nat.le_refl 1)
          · exact after?_append_of_le (Nat.le_refl 1)
          · apply after?_pair
            rintro rfl
            exact (isBarrier_head? (apart.isBarrier rfl)).1
          · apply after?_pair
            rintro rfl
            exact (isBarrier_head? (apart.isBarrier rfl)).2

theorem dollarTag?_of_head? (other : (text.dropWhile isTagPart).head? ≠ some '$') :
    dollarTag? ('$' :: text) = none := by
  rw [dollarTag?]
  split
  · rename_i dollar
    rw [dollar] at other
    exact absurd rfl other
  · rfl

theorem dollarTag?_of_dropWhile (dollar : text.dropWhile isTagPart = '$' :: rest) :
    dollarTag? ('$' :: text) =
      if (text.takeWhile isTagPart).head?.all isTagStart then
        some ('$' :: (text.takeWhile isTagPart ++ ['$']), rest)
      else none := by
  rw [dollarTag?, dollar]
  rfl

theorem not_isLoose_of_isTagPart {char : Char} (part : isTagPart char = true) :
    isLoose char = false := by
  unfold isLoose
  rw [part]
  rfl

theorem Apart.isBarrier_of_name {front : List Char} (apart : Apart ('$' :: front) rest)
    (name : ∀ char ∈ front, isTagPart char = true) : Script.isBarrier rest = true := by
  rcases List.eq_nil_or_concat front with rfl | ⟨others, last, rfl⟩
  · exact apart.isBarrier rfl
  · rw [List.concat_eq_append] at apart name
    have suffix : [last] <:+ '$' :: (others ++ [last]) :=
      (List.suffix_append others [last]).trans (List.suffix_cons _ _)
    have part := name last (List.mem_append_right others List.mem_cons_self)
    exact (apart.of_suffix suffix).isBarrier (not_isLoose_of_isTagPart part)

theorem dollarTag?_append {front : List Char} (nonempty : front ≠ []) (apart : Apart front rest) :
    dollarTag? (front ++ rest) =
      (dollarTag? front).map fun (tag, inside) => (tag, inside ++ rest) := by
  cases front with
  | nil => exact absurd rfl nonempty
  | cons char front =>
      rcases Decidable.em (char = '$') with rfl | other
      · cases left : front.dropWhile isTagPart with
        | nil =>
            have whole := List.takeWhile_append_dropWhile (p := isTagPart) (l := front)
            rw [left, List.append_nil] at whole
            have name : ∀ char ∈ front, isTagPart char = true := by
              rw [← List.all_eq_true, ← whole]
              exact List.all_takeWhile
            have barrier := apart.isBarrier_of_name name
            have begun : ((front ++ rest).dropWhile isTagPart).head? ≠ some '$' := by
              rw [List.dropWhile_append_of_pos name]
              intro dollar
              unfold isBarrier at barrier
              rw [dollar] at barrier
              cases barrier
            rw [List.cons_append, dollarTag?_of_head? begun,
              dollarTag?_of_head? (by rw [left]; nofun)]
            rfl
        | cons next others =>
            have long := congrArg List.length
              (List.takeWhile_append_dropWhile (p := isTagPart) (l := front))
            rw [left, List.length_append, List.length_cons] at long
            have name : (front ++ rest).takeWhile isTagPart = front.takeWhile isTagPart := by
              rw [List.takeWhile_append, if_neg (by omega)]
            have behind : (front ++ rest).dropWhile isTagPart = next :: (others ++ rest) := by
              rw [List.dropWhile_append, left]
              rfl
            rcases Decidable.em (next = '$') with rfl | other
            · rw [List.cons_append, dollarTag?_of_dropWhile behind, dollarTag?_of_dropWhile left,
                name]
              split <;> rfl
            · rw [List.cons_append, dollarTag?_of_head?, dollarTag?_of_head?]
              · rfl
              · rw [left]
                exact fun same => other (Option.some.inj same)
              · rw [behind]
                exact fun same => other (Option.some.inj same)
      · rw [List.cons_append, dollarTag?_of_ne other, dollarTag?_of_ne other]
        rfl

theorem findSome?_eq_map {α β γ : Type} {entries : List α} {first : α → Option β}
    {second : α → Option γ} {change : γ → β}
    (each : ∀ entry ∈ entries, first entry = (second entry).map change) :
    entries.findSome? first = (entries.findSome? second).map change := by
  induction entries with
  | nil => rfl
  | cons entry entries induction =>
      rw [List.findSome?_cons, List.findSome?_cons, each entry List.mem_cons_self,
        induction fun entry among => each entry (List.mem_cons_of_mem _ among)]
      cases second entry <;> rfl

theorem openQuote?_append {front : List Char} (nonempty : front ≠ []) (apart : Apart front rest) :
    openQuote? (front ++ rest) =
      (openQuote? front).map fun (quote, inside) => (quote, inside ++ rest) := by
  unfold openQuote?
  rw [dollarTag?_append nonempty apart, Option.map_or, Option.map_map, Option.map_map]
  congr 1
  apply findSome?_eq_map
  rintro ⟨mark, quote⟩ among
  simp only [after?_mark_append among nonempty apart, Option.map_map]
  rfl

theorem length_le_of_after? {mark : List Char} (found : after? mark text = some rest) :
    mark.length ≤ text.length := by
  induction mark generalizing text with
  | nil => exact Nat.zero_le _
  | cons expected mark induction =>
      cases text with
      | nil => cases found
      | cons char text =>
          rw [after?] at found
          exact Nat.succ_le_succ (induction (Option.ite_none_right_eq_some.mp found).2)

theorem length_le_of_afterOccurrence? {needle : List Char}
    (found : afterOccurrence? needle text = some rest) : needle.length ≤ text.length := by
  induction text with
  | nil => exact length_le_of_after? found
  | cons char text induction =>
      rcases Option.or_eq_some_iff.mp found with here | ⟨_, later⟩
      · exact length_le_of_after? here
      · exact Nat.le_succ_of_le (induction later)

theorem afterOccurrence?_append {needle : List Char}
    (found : afterOccurrence? needle text = some inside) (rest : List Char) :
    afterOccurrence? needle (text ++ rest) = some (inside ++ rest) := by
  induction text with
  | nil =>
      have empty : needle = [] := List.length_eq_zero_iff.mp
        (Nat.le_zero.mp (length_le_of_afterOccurrence? found))
      rw [empty] at found ⊢
      cases found
      cases rest <;> rfl
  | cons char text induction =>
      have long := length_le_of_afterOccurrence? found
      rw [List.cons_append, afterOccurrence?, ← List.cons_append, after?_append_of_le long]
      rcases Option.or_eq_some_iff.mp found with here | ⟨missing, later⟩
      · rw [here]
        rfl
      · rw [missing, Option.map_none, Option.none_or, induction later]

theorem afterComment?_append {depth : Nat} {previous : Option Char}
    (closed : afterComment? nests depth previous text = some inside) (rest : List Char) :
    afterComment? nests depth previous (text ++ rest) = some (inside ++ rest) := by
  fun_induction afterComment? nests depth previous text with
  | case1 => cases closed
  | case2 previous char text closes =>
      cases closed
      exact if_pos closes
  | case3 previous char text closes depth induction =>
      exact (if_pos closes).trans (induction closed)
  | case4 depth previous char text within opens induction =>
      exact (if_neg within).trans ((if_pos opens).trans (induction closed))
  | case5 depth previous char text within same induction =>
      exact (if_neg within).trans ((if_neg same).trans (induction closed))

theorem closeQuote?_append (closed : closeQuote? nests quote text = some inside)
    (ended : quote = .lineComment → inside ≠ []) (rest : List Char) :
    closeQuote? nests quote (text ++ rest) = some (inside ++ rest) := by
  cases quote with
  | literal => exact afterOccurrence?_append closed rest
  | identifier => exact afterOccurrence?_append closed rest
  | body tag => exact afterOccurrence?_append closed rest
  | blockComment => exact afterComment?_append closed rest
  | lineComment =>
      cases closed
      have left : (text.dropWhile (· != '\n')).isEmpty = false := by simpa using ended rfl
      exact congrArg some (by rw [List.dropWhile_append, left]; rfl)

/-- Whether a text that was read goes on with what follows it, in a comment that its line does not
end. -/
def endsInComment (lexemes : List Lexeme) : Bool :=
  lexemes.getLast?.any fun lexeme =>
    match lexeme with
    | .quoted .lineComment _ => true
    | _ => false

theorem endsInComment_of_cons {lexeme : Lexeme} {lexemes : List Lexeme}
    (ended : endsInComment (lexeme :: lexemes) = false) : endsInComment lexemes = false := by
  cases lexemes with
  | nil => rfl
  | cons next lexemes =>
      unfold endsInComment at ended ⊢
      rw [List.getLast?_cons_cons] at ended
      exact ended

theorem lexemes?_append {front : List Char} {lexemes : List Lexeme}
    (read : lexemes? nests front = some lexemes) (ended : endsInComment lexemes = false)
    (apart : Apart front rest) :
    lexemes? nests (front ++ rest) = (lexemes? nests rest).map (lexemes ++ ·) := by
  fun_induction lexemes? nests front generalizing lexemes with
  | case1 =>
      cases read
      simp
  | case2 char text unopened induction =>
      rcases Option.map_eq_some_iff.mp read with ⟨others, more, rfl⟩
      have unopened : openQuote? (char :: (text ++ rest)) = none := by
        rw [← List.cons_append, openQuote?_append (List.cons_ne_nil _ _) apart, unopened]
        rfl
      rw [List.cons_append, lexemes?_plain unopened,
        induction more (endsInComment_of_cons ended) apart.of_cons, Option.map_map]
      rfl
  | case3 => cases read
  | case4 char text quote inside opened left closed induction =>
      rcases Option.map_eq_some_iff.mp read with ⟨others, more, rfl⟩
      have suffix := (suffix_of_closeQuote? closed).trans (suffix_of_openQuote? opened)
      have goesOn : quote = .lineComment → left ≠ [] := by
        rintro rfl rfl
        rw [lexemes?_nil] at more
        cases more
        cases ended
      have opened : openQuote? (char :: text ++ rest) = some (quote, inside ++ rest) := by
        rw [openQuote?_append (List.cons_ne_nil _ _) apart, opened]
        rfl
      have stretch : (char :: text ++ rest).take
          ((char :: text ++ rest).length - (left ++ rest).length) =
          (char :: text).take (text.length + 1 - left.length) := by
        rw [List.length_append, List.length_append, Nat.add_sub_add_right, List.length_cons]
        exact List.take_append_of_le_length (Nat.sub_le _ _)
      rw [lexemes?_quoted opened (closeQuote?_append closed goesOn rest), stretch,
        induction more (endsInComment_of_cons ended) (apart.of_suffix suffix), Option.map_map]
      rfl

theorem flatMap_text_lexemes? {lexemes : List Lexeme}
    (read : lexemes? nests text = some lexemes) : lexemes.flatMap Lexeme.text = text := by
  fun_induction lexemes? nests text generalizing lexemes with
  | case1 =>
      cases read
      rfl
  | case2 char text unopened induction =>
      rcases Option.map_eq_some_iff.mp read with ⟨others, more, rfl⟩
      rw [List.flatMap_cons, induction more]
      rfl
  | case3 => cases read
  | case4 char text quote inside opened left closed induction =>
      rcases Option.map_eq_some_iff.mp read with ⟨others, more, rfl⟩
      have suffix := (suffix_of_closeQuote? closed).trans (suffix_of_openQuote? opened)
      rw [List.flatMap_cons, induction more, Lexeme.text, ← List.length_cons,
        List.suffix_iff_eq_append.mp suffix]

end SchemaDdl.Script
