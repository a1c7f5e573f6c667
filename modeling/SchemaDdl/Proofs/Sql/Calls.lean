import SchemaDdl.Proofs.Number.Numeral
import SchemaDdl.Proofs.Script.Lexeme
import SchemaDdl.Proofs.Sql.Reading
import SchemaDdl.Sql.DefaultClause

/-!
# Calls in expressions

A function is called by its name and an opening parenthesis, which blanks and comments may part.
What stands between quotes calls nothing, so a text that is written as a literal is never a call,
whatever it says.
-/

namespace SchemaDdl

namespace Script

/-- A lexeme as a part of an expression: a comment is a blank, and what is quoted is hidden. -/
def Lexeme.code : Lexeme → List Char
  | .plain char => [char]
  | .quoted .lineComment _ | .quoted .blockComment _ => [' ']
  | .quoted .literal _ | .quoted .identifier _ | .quoted (.body _) _ => ['\'']

variable {nests : Bool} {text inner rest : List Char} {lexemes : List Lexeme} {char : Char}

theorem mem_of_mem_code (read : lexemes? nests text = some lexemes)
    (member : char ∈ lexemes.flatMap Lexeme.code) (other : char ≠ ' ' ∧ char ≠ '\'') :
    char ∈ text := by
  rcases List.mem_flatMap.mp member with ⟨lexeme, among, found⟩
  rw [← flatMap_text_lexemes? read]
  refine List.mem_flatMap.mpr ⟨lexeme, among, ?_⟩
  cases lexeme with
  | plain => exact found
  | quoted quote =>
      cases quote with
      | literal | identifier | body => exact absurd (List.mem_singleton.mp found) other.2
      | lineComment | blockComment => exact absurd (List.mem_singleton.mp found) other.1

theorem afterOccurrence?_quote (free : '\'' ∉ inner) (rest : List Char) :
    afterOccurrence? ['\''] (inner ++ '\'' :: rest) = some rest := by
  induction inner with
  | nil => rfl
  | cons char inner induction =>
      rw [List.mem_cons, not_or] at free
      rw [List.cons_append, afterOccurrence?, Text.after?, if_neg free.1, Option.none_or,
        induction free.2]

theorem lexemes?_literal (free : '\'' ∉ inner) (rest : List Char) :
    ∃ stretch, lexemes? nests ('\'' :: (inner ++ '\'' :: rest)) =
      (lexemes? nests rest).map (.quoted .literal stretch :: ·) :=
  ⟨_, lexemes?_quoted rfl (afterOccurrence?_quote free rest)⟩

theorem exists_lexemes?_enclose (text rest : List Char) :
    ∃ literals : List Lexeme, (∀ lexeme ∈ literals, lexeme.code = ['\'']) ∧
      lexemes? nests (Sql.enclose '\'' text ++ rest) =
        (lexemes? nests rest).map (literals ++ ·) := by
  by_cases held : '\'' ∈ text
  · rcases List.eq_append_cons_of_mem held with ⟨inner, others, split, free⟩
    rcases exists_lexemes?_enclose others rest with ⟨literals, each, read⟩
    have parts : Sql.enclose '\'' text ++ rest =
        '\'' :: (inner ++ '\'' :: (Sql.enclose '\'' others ++ rest)) := by
      simp [split, Sql.enclose_eq, Sql.doubled_append, Sql.doubled_of_not_mem free]
    rcases lexemes?_literal free (Sql.enclose '\'' others ++ rest) with ⟨stretch, first⟩
    refine ⟨.quoted .literal stretch :: literals, List.forall_mem_cons.mpr ⟨rfl, each⟩, ?_⟩
    rw [parts, first, read, Option.map_map]
    rfl
  · have whole : Sql.enclose '\'' text ++ rest = '\'' :: (text ++ '\'' :: rest) := by
      simp [Sql.enclose_eq, Sql.doubled_of_not_mem held]
    rcases lexemes?_literal held rest with ⟨stretch, read⟩
    exact ⟨[.quoted .literal stretch], List.forall_mem_singleton.mpr rfl, whole ▸ read⟩
termination_by text.length
decreasing_by
  rw [split, List.length_append, List.length_cons]
  omega

end Script

namespace Sql

open Script

/-! ## Calls -/

def extendsName (char : Char) : Bool :=
  char.isAlphanum || char == '_' || char == '$' || 128 ≤ char.toNat

/-- A place in the code of an expression where a function is called by its name, in whatever letters
and with whatever blanks behind it. -/
structure CallSite (function : String) (code : List Char) where
  before : List Char
  name : List Char
  blanks : List Char
  arguments : List Char
  code_eq : code = before ++ (name ++ (blanks ++ '(' :: arguments))
  named : Text.lower name = function.toList
  blank : blanks.all Text.isBlank = true
  whole : ∀ char ∈ before.getLast?, extendsName char = false

/-- Whether an expression calls a function outside of all quotes. -/
def Calls (function : String) (text : List Char) : Prop :=
  ∃ lexemes, lexemes? true text = some lexemes ∧
    Nonempty (CallSite function (lexemes.flatMap Lexeme.code))

variable {function : String} {text front rest : List Char}

theorem Calls.mem_opening (calls : Calls function text) : '(' ∈ text := by
  rcases calls with ⟨lexemes, read, ⟨site⟩⟩
  refine mem_of_mem_code read ?_ (by decide)
  simp [site.code_eq]

theorem Calls.mem_letter (calls : Calls function text) {letter : Char}
    (among : letter ∈ function.toList) (other : letter ≠ ' ' ∧ letter ≠ '\'') :
    ∃ char ∈ text, char.toLower = letter := by
  rcases calls with ⟨lexemes, read, ⟨site⟩⟩
  rw [← site.named] at among
  rcases List.mem_map.mp among with ⟨char, member, rfl⟩
  refine ⟨char, mem_of_mem_code read ?_ ⟨?_, ?_⟩, rfl⟩
  · simp [site.code_eq, member]
  · rintro rfl
    exact other.1 rfl
  · rintro rfl
    exact other.2 rfl

theorem CallSite.of_append (site : CallSite function (front ++ rest))
    (nonempty : function.toList ≠ []) (apart : ∀ char ∈ front, char.toLower ∉ function.toList) :
    Nonempty (CallSite function rest) := by
  rcases List.append_eq_append_iff.mp site.code_eq with
    ⟨middle, before, behind⟩ | ⟨middle, within, behind⟩
  · refine ⟨⟨middle, site.name, site.blanks, site.arguments, behind, site.named, site.blank, ?_⟩⟩
    intro last final
    refine site.whole last ?_
    rw [before, List.getLast?_append, Option.mem_def.mp final]
    rfl
  · -- The name would begin within the front, unless nothing of the front is left.
    cases middle with
    | nil =>
        exact ⟨⟨[], site.name, site.blanks, site.arguments, behind.symm, site.named, site.blank,
          nofun⟩⟩
    | cons char middle =>
        have named := site.named
        cases name : site.name with
        | nil =>
            rw [name] at named
            exact absurd named.symm nonempty
        | cons first others =>
            rw [name, List.cons_append, List.cons_append] at behind
            refine absurd ?_ (apart first (by simp [within, (List.cons.inj behind).1]))
            rw [← named, name]
            exact List.mem_cons_self

theorem Calls.of_append (shown : List Lexeme)
    (read : lexemes? true (front ++ rest) = (lexemes? true rest).map (shown ++ ·))
    (nonempty : function.toList ≠ [])
    (apart : ∀ lexeme ∈ shown, ∀ char ∈ lexeme.code, char.toLower ∉ function.toList)
    (calls : Calls function (front ++ rest)) : Calls function rest := by
  rcases calls with ⟨lexemes, whole, ⟨site⟩⟩
  rcases Option.map_eq_some_iff.mp (read.symm.trans whole) with ⟨others, behind, rfl⟩
  rw [List.flatMap_append] at site
  exact ⟨others, behind, site.of_append nonempty (List.forall_mem_flatMap.mpr apart)⟩

/-! ## Literals -/

theorem Calls.of_enclose (nonempty : function.toList ≠ []) (unquoted : '\'' ∉ function.toList)
    (calls : Calls function (enclose '\'' text ++ rest)) : Calls function rest := by
  rcases exists_lexemes?_enclose text rest with ⟨literals, each, read⟩
  refine calls.of_append literals read nonempty fun lexeme member char among => ?_
  rw [each lexeme member, List.mem_singleton] at among
  rw [among]
  exact unquoted

theorem not_calls_literal (value : String) : ¬Calls "nextval" (literal value).toList := by
  intro calls
  have alone : Calls "nextval" (enclose '\'' value.toList ++ []) := by
    rwa [List.append_nil, ← String.toList_ofList (l := enclose '\'' value.toList)]
  have behind : Calls "nextval" [] := alone.of_enclose (by decide) (by decide)
  exact List.not_mem_nil behind.mem_opening

theorem calls_of_typedLiteral {column : Column} {value : String}
    (calls : Calls "nextval" (typedLiteral .postgres column value).toList) :
    Calls "nextval" column.declaredType.toList := by
  have colon (rest : List Char) (calls : Calls "nextval" ([':'] ++ rest)) : Calls "nextval" rest :=
    calls.of_append [.plain ':'] (lexemes?_plain rfl) (by decide)
      (List.forall_mem_singleton.mpr (List.forall_mem_singleton.mpr (by decide)))
  have parts : (typedLiteral .postgres column value).toList =
      enclose '\'' value.toList ++ ([':'] ++ ([':'] ++ column.declaredType.toList)) := by
    simp [typedLiteral, literal]
  rw [parts] at calls
  exact colon _ (colon _ (calls.of_enclose (by decide) (by decide)))

/-! ## Defaults -/

section

variable {capabilities : Capabilities} {column : Column} {written : String}

theorem not_calls_of_letters (other : text.all (·.toLower != 'x') = true) :
    ¬Calls "nextval" text := by
  intro calls
  rcases calls.mem_letter (by decide : 'x' ∈ "nextval".toList) (by decide) with ⟨char, member, same⟩
  exact bne_iff_ne.mp (List.all_eq_true.mp other char member) same

theorem not_calls_of_numeral (numeral : Text.Numeral text) : ¬Calls "nextval" text :=
  fun calls => numeral.not_mem rfl calls.mem_opening

theorem calls_sentinelDefault {sentinel : Sentinel} (postgres : capabilities.family = .postgres)
    (done : sentinelDefault capabilities column sentinel = .ok written)
    (calls : Calls "nextval" written.toList) : Calls "nextval" column.declaredType.toList := by
  unfold sentinelDefault at done
  rw [postgres] at done
  cases sentinel with
  | emptyObject =>
      simp only [] at done
      split_ifs at done <;> cases done
      · exact calls_of_typedLiteral calls
      · exact absurd calls (not_calls_literal _)
  | emptyArray =>
      simp only [] at done
      split_ifs at done <;> cases done
      · exact calls_of_typedLiteral calls
      · exact calls_of_typedLiteral calls
      · exact absurd calls (not_calls_literal _)
  | genRandomUuid | currentTimestamp | currentDate =>
      cases done
      exact absurd calls (not_calls_of_letters (by decide))
  | uniqueRowId =>
      simp only [] at done
      split_ifs at done
      cases done
      exact absurd calls (not_calls_of_letters (by decide))

theorem calls_jsonDefault {value : Json.Value}
    (done : jsonDefault .postgres column value = .ok written)
    (calls : Calls "nextval" written.toList) : Calls "nextval" column.declaredType.toList := by
  unfold jsonDefault at done
  split at done
  · split at done
    · split at done
      · cases done
        exact calls_of_typedLiteral calls
      · cases done
    · cases done
  · split at done <;> cases done
    · exact calls_of_typedLiteral calls
    · exact absurd calls (not_calls_literal _)

/-- A default that calls `nextval` is an expression as written, a string that is taken for one, or
behind a cast to a type that is written with such a call. -/
theorem calls_writtenDefault {value : Default} (postgres : capabilities.family = .postgres)
    (done : writtenDefault capabilities column value = .ok written)
    (calls : Calls "nextval" written.toList) :
    (∃ expression, value = .raw expression) ∨
      (∃ string, value = .literal (.string string) ∧ isExpression string = true) ∨
      Calls "nextval" column.declaredType.toList := by
  cases value with
  | raw expression => exact .inl ⟨expression, rfl⟩
  | sentinel sentinel => exact .inr (.inr (calls_sentinelDefault postgres done calls))
  | literal value =>
      rw [writtenDefault, postgres] at done
      cases value with
      | null =>
          cases done
          exact absurd calls (not_calls_of_letters (by decide))
      | boolean value =>
          cases done
          cases value <;> exact absurd calls (not_calls_of_letters (by decide))
      | integer value =>
          cases done
          exact absurd calls (not_calls_of_numeral (Text.numeral_toString_int value))
      | float value =>
          rw [literalDefault] at done
          split at done <;> cases done
          exact absurd calls (not_calls_of_numeral (Binary64.numeral_toPlain ‹_›))
      | json value => exact .inr (.inr (calls_jsonDefault done calls))
      | string value =>
          rw [literalDefault] at done
          split at done <;> cases done
          · exact .inr (.inl ⟨value, rfl, ‹_›⟩)
          · exact absurd calls (not_calls_literal value)

end

end Sql

end SchemaDdl
