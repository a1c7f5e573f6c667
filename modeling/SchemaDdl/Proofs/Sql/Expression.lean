import SchemaDdl.Proofs.Sql.Nesting
import SchemaDdl.Proofs.Text.Splitting
import SchemaDdl.Sql.DefaultClause

/-!
# Keywords and calls

A string default stands in a statement as it is where it is taken for a keyword or a call. That it
is one keyword or one call, and nothing goes on behind the call, is more than what is looked at: the
test asks for a closing parenthesis at the end, but not for the one that closes the arguments.
-/

namespace SchemaDdl.Sql

/-! ## Names, keywords and calls -/

def IsKeyword (keywords : List String) (text : List Char) : Prop :=
  ∃ keyword ∈ keywords, Text.lower text = keyword.toList

def IsName (text : List Char) : Prop :=
  ∃ first rest, text = first :: rest ∧ isNameStart first = true ∧ rest.all isNamePart = true

def IsQualifiedName (text : List Char) : Prop :=
  IsName text ∨ ∃ schema name, text = schema ++ '.' :: name ∧ IsName schema ∧ IsName name

structure CallParts (text : List Char) where
  name : List Char
  blanks : List Char
  arguments : List Char
  whole : text = name ++ (blanks ++ '(' :: (arguments ++ [')']))
  named : IsQualifiedName name
  blank : blanks.all Text.isBlank = true

def IsSingleCall (text : List Char) : Prop :=
  ∃ parts : CallParts text, Balanced parts.arguments

/-- A text that is a keyword for a value or a single call. -/
def StandsAlone (text : List Char) : Prop :=
  IsKeyword valueKeywords text ∨ IsSingleCall text

/-- What keeps an accepted text to itself: the first parenthesis encloses all that follows it, and
where there is none, the letters are all of ASCII. -/
def StaysWhole (text : List Char) : Prop :=
  if '(' ∈ text then isParenthesized (text.dropWhile (· != '(')) = true else '\u017f' ∉ text

instance (text : List Char) : Decidable (StaysWhole text) :=
  inferInstanceAs <| Decidable <|
    if '(' ∈ text then isParenthesized (text.dropWhile (· != '(')) = true else '\u017f' ∉ text

variable {text rest name : List Char} {char : Char} {keywords : List String}

/-! ## Letter case -/

/-- Two letters beyond ASCII are folded, and no keyword is spelled with one of them in small
letters, or with a `k`. -/
def Unfolded (keywords : List String) : Prop :=
  ∀ keyword ∈ keywords, '\u017f' ∉ keyword.toList ∧ '\u212a' ∉ keyword.toList ∧ 'k' ∉ keyword.toList

instance (keywords : List String) : Decidable (Unfolded keywords) :=
  inferInstanceAs (Decidable (∀ keyword ∈ keywords, _))

theorem fold_of_ne (long : char ≠ '\u017f') (kelvin : char ≠ '\u212a') :
    Text.fold char = char.toLower := by
  rw [Text.fold, if_neg long, if_neg kelvin]

theorem foldAll_eq_lower (long : '\u017f' ∉ text) (kelvin : '\u212a' ∉ text) :
    Text.foldAll text = Text.lower text :=
  List.map_congr_left fun _ among =>
    fold_of_ne (fun same => long (same ▸ among)) fun same => kelvin (same ▸ among)

theorem mem_foldAll (among : char ∈ text) : Text.fold char ∈ Text.foldAll text :=
  List.mem_map_of_mem among

theorem isOneOf_iff :
    isOneOf keywords text = true ↔ ∃ keyword ∈ keywords, Text.foldAll text = keyword.toList := by
  simp [isOneOf]

theorem isKeyword_iff (unfolded : Unfolded keywords) :
    IsKeyword keywords text ↔ isOneOf keywords text = true ∧ '\u017f' ∉ text := by
  rw [isOneOf_iff]
  constructor
  · rintro ⟨keyword, among, same⟩
    have lowered : ∀ char ∈ text, char.toLower ∈ keyword.toList :=
      fun char member => same ▸ List.mem_map_of_mem member
    have long : '\u017f' ∉ text := fun member => (unfolded keyword among).1 (lowered _ member)
    have kelvin : '\u212a' ∉ text := fun member => (unfolded keyword among).2.1 (lowered _ member)
    exact ⟨⟨keyword, among, foldAll_eq_lower long kelvin ▸ same⟩, long⟩
  · rintro ⟨⟨keyword, among, same⟩, long⟩
    have kelvin : '\u212a' ∉ text := fun member =>
      (unfolded keyword among).2.2 (same ▸ mem_foldAll member)
    exact ⟨keyword, among, foldAll_eq_lower long kelvin ▸ same⟩

/-! ## Names -/

theorem not_isNamePart_of_isBlank (blank : Text.isBlank char = true) : isNamePart char = false := by
  have outside : (!isNamePart char) = true :=
    Text.of_isBlank (!isNamePart ·) (by decide +kernel) blank
  simpa using outside

theorem afterName?_eq_some_iff : afterName? text = some rest ↔
    ∃ name, text = name ++ rest ∧ IsName name ∧ ∀ next ∈ rest.head?, isNamePart next = false := by
  constructor
  · intro found
    cases text with
    | nil => cases found
    | cons first text =>
        rw [afterName?, Option.ite_none_right_eq_some] at found
        cases found.2
        refine ⟨first :: text.takeWhile isNamePart, ?_, ?_, ?_⟩
        · rw [List.cons_append, List.takeWhile_append_dropWhile]
        · exact ⟨first, _, rfl, found.1, List.all_takeWhile⟩
        · intro next ahead
          have stops := List.head?_dropWhile_not isNamePart text
          rwa [ahead] at stops
  · rintro ⟨_, rfl, ⟨first, parts, rfl, start, each⟩, ends⟩
    rw [List.cons_append, afterName?, if_pos start, Text.dropWhile_append_of_stop each ends]

theorem IsName.all (named : IsName name) : ∀ char ∈ name, isNamePart char = true := by
  rcases named with ⟨first, rest, rfl, start, parts⟩
  intro char among
  rcases List.mem_cons.mp among with rfl | among
  · rw [isNamePart, start, Bool.true_or]
  · exact List.all_eq_true.mp parts char among

theorem IsQualifiedName.mem (named : IsQualifiedName name) :
    ∀ char ∈ name, isNamePart char = true ∨ char = '.' := by
  intro char among
  rcases named with named | ⟨schema, name, rfl, schemaNamed, named⟩
  · exact .inl (named.all char among)
  · rcases List.mem_append.mp among with among | among
    · exact .inl (schemaNamed.all char among)
    · rcases List.mem_cons.mp among with rfl | among
      · exact .inr rfl
      · exact .inl (named.all char among)

theorem IsQualifiedName.head? (named : IsQualifiedName name) :
    ∃ first ∈ name.head?, isNameStart first = true := by
  rcases named with ⟨first, rest, rfl, start, _⟩ | ⟨_, name, rfl, ⟨first, rest, rfl, start, _⟩, _⟩
  · exact ⟨first, rfl, start⟩
  · exact ⟨first, rfl, start⟩

theorem afterQualifiedName?_append (named : IsQualifiedName name)
    (ends : ∀ next ∈ rest.head?, isNamePart next = false ∧ next ≠ '.') :
    afterQualifiedName? (name ++ rest) = some rest := by
  unfold afterQualifiedName?
  rcases named with named | ⟨schema, name, rfl, schemaNamed, named⟩
  · have found : afterName? (name ++ rest) = some rest :=
      afterName?_eq_some_iff.mpr ⟨name, rfl, named, fun next ahead => (ends next ahead).1⟩
    rw [found]
    split
    · rename_i pointed
      cases pointed
      exact absurd rfl (ends '.' rfl).2
    · rfl
  · have found : afterName? (schema ++ '.' :: (name ++ rest)) = some ('.' :: (name ++ rest)) := by
      refine afterName?_eq_some_iff.mpr ⟨schema, rfl, schemaNamed, ?_⟩
      rintro _ ⟨⟩
      decide
    rw [List.append_assoc, List.cons_append, found]
    exact afterName?_eq_some_iff.mpr ⟨name, rfl, named, fun next ahead => (ends next ahead).1⟩

theorem exists_of_afterQualifiedName? (found : afterQualifiedName? text = some rest) :
    ∃ name, text = name ++ rest ∧ IsQualifiedName name := by
  unfold afterQualifiedName? at found
  split at found
  · rename_i pointed
    rcases afterName?_eq_some_iff.mp pointed with ⟨schema, rfl, schemaNamed, _⟩
    rcases afterName?_eq_some_iff.mp found with ⟨name, rfl, named, _⟩
    exact ⟨schema ++ '.' :: name, by simp, .inr ⟨schema, name, rfl, schemaNamed, named⟩⟩
  · rcases afterName?_eq_some_iff.mp found with ⟨name, rfl, named, _⟩
    exact ⟨name, rfl, .inl named⟩

/-! ## Calls -/

theorem isCall_iff : isCall text = true ↔ Nonempty (CallParts text) := by
  constructor
  · intro call
    unfold isCall at call
    split at call
    · rename_i behind opened
      rcases Option.map_eq_some_iff.mp opened with ⟨more, found, trimmed⟩
      rcases exists_of_afterQualifiedName? found with ⟨name, rfl, named⟩
      rcases List.getLast?_eq_some_iff.mp (beq_iff_eq.mp call) with ⟨arguments, rfl⟩
      refine ⟨⟨name, more.takeWhile Text.isBlank, arguments, ?_, named, List.all_takeWhile⟩⟩
      rw [← trimmed, Text.trimStart, List.takeWhile_append_dropWhile]
    · cases call
  · rintro ⟨name, blanks, arguments, rfl, named, blank⟩
    have ends : ∀ next ∈ (blanks ++ '(' :: (arguments ++ [')'])).head?,
        isNamePart next = false ∧ next ≠ '.' := by
      intro next ahead
      cases blanks with
      | nil => cases ahead; decide
      | cons first blanks =>
          cases ahead
          have blank : Text.isBlank next = true := List.all_eq_true.mp blank next List.mem_cons_self
          refine ⟨not_isNamePart_of_isBlank blank, ?_⟩
          rintro rfl
          cases blank
    have found := afterQualifiedName?_append named ends
    have trimmed : Text.trimStart (blanks ++ '(' :: (arguments ++ [')'])) =
        '(' :: (arguments ++ [')']) := by
      rw [Text.trimStart, List.dropWhile_append_of_pos (List.all_eq_true.mp blank)]
      exact List.dropWhile_cons_of_neg (by decide)
    rw [isCall, found, Option.map_some, trimmed]
    simp

namespace CallParts

theorem not_mem_front (parts : CallParts text) : '(' ∉ parts.name ++ parts.blanks := by
  rw [List.mem_append, not_or]
  constructor
  · intro among
    rcases parts.named.mem '(' among with part | point
    · exact absurd part (by decide)
    · exact absurd point (by decide)
  · intro among
    exact absurd (List.all_eq_true.mp parts.blank '(' among) (by decide)

theorem dropWhile_eq (parts : CallParts text) :
    text.dropWhile (· != '(') = '(' :: (parts.arguments ++ [')']) := by
  have front : ∀ char ∈ parts.name ++ parts.blanks, (char != '(') = true :=
    fun char among => bne_iff_ne.mpr fun same => parts.not_mem_front (same ▸ among)
  conv_lhs => rw [parts.whole]
  rw [← List.append_assoc, List.dropWhile_append_of_pos front]
  rfl

theorem mem_opening (parts : CallParts text) : '(' ∈ text := by
  rw [parts.whole]
  simp

end CallParts

theorem isSingleCall_iff (parts : CallParts text) :
    IsSingleCall text ↔ isParenthesized (text.dropWhile (· != '(')) = true := by
  rw [isParenthesized_iff]
  constructor
  · rintro ⟨others, balanced⟩
    exact ⟨others.arguments, others.dropWhile_eq, balanced⟩
  · rintro ⟨inner, enclosed, balanced⟩
    rw [parts.dropWhile_eq, List.cons.injEq, List.append_left_inj] at enclosed
    exact ⟨parts, enclosed.2 ▸ balanced⟩

/-! ## Accepted texts -/

theorem unfolded_valueKeywords : Unfolded valueKeywords := by
  simp [Unfolded, valueKeywords]

theorem not_mem_of_isOneOf_valueKeywords (keyword : isOneOf valueKeywords text = true) :
    '(' ∉ text := by
  intro among
  rcases isOneOf_iff.mp keyword with ⟨keyword, listed, same⟩
  have absent : ∀ keyword ∈ valueKeywords, '(' ∉ keyword.toList := by
    simp [valueKeywords]
  exact absent keyword listed (same ▸ mem_foldAll among)

theorem standsAlone_iff_staysWhole
    (accepted : isOneOf valueKeywords text = true ∨ isCall text = true) :
    StandsAlone text ↔ StaysWhole text := by
  unfold StandsAlone StaysWhole
  rw [isKeyword_iff unfolded_valueKeywords]
  rcases accepted with keyword | call
  · have closed := not_mem_of_isOneOf_valueKeywords keyword
    have other : ¬IsSingleCall text := fun ⟨parts, _⟩ => closed parts.mem_opening
    rw [if_neg closed, keyword, or_iff_left other, eq_self_iff_true, true_and]
  · rcases isCall_iff.mp call with ⟨parts⟩
    have other : ¬(isOneOf valueKeywords text = true ∧ '\u017f' ∉ text) :=
      fun keyword => not_mem_of_isOneOf_valueKeywords keyword.1 parts.mem_opening
    rw [if_pos parts.mem_opening, or_iff_right other, isSingleCall_iff parts]

theorem isNameStart_of_isLower (lower : (Text.fold char).isLower = true) :
    isNameStart char = true := by
  rw [isNameStart, lower, Bool.true_or]

theorem isNameStart_of_accepted
    (accepted : isOneOf valueKeywords text = true ∨ isCall text = true) :
    ∃ first ∈ text.head?, isNameStart first = true := by
  rcases accepted with keyword | call
  · rcases isOneOf_iff.mp keyword with ⟨keyword, listed, same⟩
    have letters : ∀ keyword ∈ valueKeywords, keyword.toList.head?.any Char.isLower = true := by
      simp [valueKeywords]
    have letter := letters keyword listed
    rw [← same] at letter
    cases text with
    | nil => cases letter
    | cons first rest => exact ⟨first, rfl, isNameStart_of_isLower letter⟩
  · rcases isCall_iff.mp call with ⟨parts⟩
    rcases parts.named.head? with ⟨first, ahead, start⟩
    rcases List.head?_eq_some_iff.mp ahead with ⟨rest, named⟩
    refine ⟨first, ?_, start⟩
    rw [parts.whole, named]
    rfl

theorem accepted_of_standsAlone (alone : StandsAlone text) :
    isOneOf valueKeywords text = true ∨ isCall text = true := by
  rcases alone with keyword | ⟨parts, _⟩
  · exact .inl ((isKeyword_iff unfolded_valueKeywords).mp keyword).1
  · exact .inr (isCall_iff.mpr ⟨parts⟩)

theorem isExpression_iff (value : String) : isExpression value = true ↔
    isOneOf valueKeywords (Text.trim value.toList) = true ∨
      isCall (Text.trim value.toList) = true :=
  Bool.or_eq_true_iff

/-! ## Expressions and strings behind DEFAULT -/

def StandsBare (family : Family) (text : List Char) : Prop :=
  family = .postgres ∨ isConstant text = true ∨ isParenthesized text = true

instance (family : Family) (text : List Char) : Decidable (StandsBare family text) :=
  inferInstanceAs (Decidable (_ ∨ _ ∨ _))

theorem expressionDefault_eq (family : Family) (expression : String) :
    expressionDefault family expression =
      if StandsBare family (Text.trim expression.toList) then Text.trimmed expression
      else "(" ++ Text.trimmed expression ++ ")" := by
  have same : (decide (family = .postgres) || isConstant (Text.trim expression.toList)
      || isParenthesized (Text.trim expression.toList)) = true ↔
      StandsBare family (Text.trim expression.toList) := by
    simp [StandsBare, or_assoc]
  simp only [expressionDefault, same, Text.trimmed]

theorem toList_expressionDefault (family : Family) (expression : String) :
    (expressionDefault family expression).toList =
      if StandsBare family (Text.trim expression.toList) then Text.trim expression.toList
      else '(' :: (Text.trim expression.toList ++ [')']) := by
  rw [expressionDefault_eq]
  split <;> simp [Text.trimmed]

/-- Whether the text behind `DEFAULT` for a string is the string as a literal, or else one keyword
or one call, which SQLite may have between parentheses. -/
def KeepsApart (family : Family) (value text : String) : Prop :=
  text = literal value ∨ ∃ expression, StandsAlone expression ∧
    (text.toList = expression ∨ family = .sqlite ∧ text.toList = '(' :: (expression ++ [')']))

theorem head?_of_accepted (accepted : isOneOf valueKeywords text = true ∨ isCall text = true) :
    text.head? ≠ some '\'' ∧ text.head? ≠ some '(' := by
  rcases isNameStart_of_accepted accepted with ⟨first, ahead, start⟩
  rw [Option.mem_def.mp ahead]
  constructor <;> rintro ⟨⟩ <;> exact absurd start (by decide)

theorem head?_literal (value : String) : (literal value).toList.head? = some '\'' := by
  simp [literal, enclose]

theorem keepsApart_expressionDefault_iff {family : Family} {value : String}
    (accepted : isExpression value = true) :
    KeepsApart family value (expressionDefault family value) ↔
      StandsAlone (Text.trim value.toList) := by
  have heads := head?_of_accepted ((isExpression_iff value).mp accepted)
  have written := toList_expressionDefault family value
  constructor
  · rintro (quoted | ⟨expression, alone, bare | ⟨_, enclosed⟩⟩)
    · have first := head?_literal value
      rw [← quoted, written] at first
      split at first
      · exact absurd first heads.1
      · cases first
    · rw [written] at bare
      split at bare
      · exact bare ▸ alone
      · have first := (head?_of_accepted (accepted_of_standsAlone alone)).2
        rw [← bare] at first
        exact absurd rfl first
    · rw [written] at enclosed
      split at enclosed
      · rw [enclosed] at heads
        exact absurd rfl heads.2
      · rw [List.cons.injEq, List.append_left_inj] at enclosed
        exact enclosed.2 ▸ alone
  · intro alone
    refine .inr ⟨_, alone, ?_⟩
    split at written
    · exact .inl written
    · rename_i enclosed
      refine .inr ⟨?_, written⟩
      cases family with
      | sqlite => rfl
      | postgres => exact absurd (.inl rfl) enclosed

/-- A string that is taken for a keyword or a call is a single one exactly if its first parenthesis
encloses the rest of it, and its letters are of ASCII where it has no parenthesis. On the same
condition, what is written for a string default in either family is the literal, or one keyword or
one call. -/
theorem stringDefault_keepsApart_iff (family : Family) (column : Column) (value : String) :
    ((isExpression value = true → StandsAlone (Text.trim value.toList)) ↔
      (isExpression value = true → StaysWhole (Text.trim value.toList))) ∧
    ∃ text, literalDefault family column (.string value) = .ok text ∧
      (KeepsApart family value text ↔
        (isExpression value = true → StaysWhole (Text.trim value.toList))) := by
  have single (accepted : isExpression value = true) :
      StandsAlone (Text.trim value.toList) ↔ StaysWhole (Text.trim value.toList) :=
    standsAlone_iff_staysWhole ((isExpression_iff value).mp accepted)
  refine ⟨forall_congr' single, ?_⟩
  by_cases accepted : isExpression value = true
  · refine ⟨expressionDefault family value, if_pos accepted, ?_⟩
    rw [keepsApart_expressionDefault_iff accepted, single accepted, forall_prop_of_true accepted]
  · refine ⟨literal value, if_neg accepted, ?_⟩
    exact iff_of_true (.inl rfl) fun accepted' => absurd accepted' accepted

def runningOn : String :=
  "now()); DROP TABLE pages; SELECT (1)"

/-- A call that does not stand alone is written as it is. -/
theorem stringDefault_runs_on :
    isExpression runningOn = true ∧ ¬StandsAlone (Text.trim runningOn.toList) ∧
    literalDefault .postgres { name := "at", dataType := "text" } (.string runningOn) =
      .ok runningOn ∧
    ¬KeepsApart .postgres runningOn runningOn := by
  have accepted : isExpression runningOn = true := by decide
  have same : expressionDefault .postgres runningOn = runningOn := by decide
  have more : ¬StandsAlone (Text.trim runningOn.toList) := by
    rw [standsAlone_iff_staysWhole ((isExpression_iff _).mp accepted)]
    decide
  refine ⟨accepted, more, rfl, fun apart => more ?_⟩
  rwa [← keepsApart_expressionDefault_iff accepted, same]

end SchemaDdl.Sql
