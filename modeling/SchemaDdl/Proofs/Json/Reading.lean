import SchemaDdl.Proofs.Json.Extent
import SchemaDdl.Proofs.Json.Token

/-!
# Reading back what is written

The one-line text of a value that fits the bounds of the reader is read as that value, when the text
of each floating-point number in it is. The induction is over the value, and `ReadsAs` carries it: a
value is read in front of any text that cannot go on with a number.
-/

namespace SchemaDdl.Json

mutual
/-- The numbers in a value, in the order of the text. -/
def Value.numbers : Value → List Number
  | .number number => [number]
  | .array items => itemNumbers items
  | .object members => memberNumbers members
  | _ => []

def itemNumbers : List Value → List Number
  | [] => []
  | item :: items => item.numbers ++ itemNumbers items

def memberNumbers : List (String × Value) → List Number
  | [] => []
  | (_, value) :: members => value.numbers ++ memberNumbers members
end

/-- Whether the reader takes a number back from its text. -/
def Number.ReadsBack (number : Number) : Prop :=
  read number.text = some (.number number)

instance (number : Number) : Decidable number.ReadsBack :=
  match found : read number.text with
  | some (.number other) => decidable_of_iff (other = number) (by simp [Number.ReadsBack, found])
  | some .null | some (.bool _) | some (.string _) | some (.array _) | some (.object _)
  | some .unreadable | none => .isFalse (by simp [Number.ReadsBack, found])

def ReadsAs (depth : Nat) (text : List Char) (value : Value) : Prop :=
  ∀ fuel rest, 2 * text.length ≤ fuel → EndsToken rest →
    ∃ after, readValue fuel depth (skipBlanks (text ++ rest)) = some (value, after) ∧
      skipBlanks after = skipBlanks rest

theorem skipBlanks_append {text rest : List Char} (nonempty : skipBlanks text ≠ []) :
    skipBlanks (text ++ rest) = skipBlanks text ++ rest := by
  unfold skipBlanks at nonempty ⊢
  rw [List.dropWhile_append]
  simp [nonempty]

/-! ## Numbers and strings -/

theorem readValue_of_readToken {text after : List Char} {token : Token} (fuel depth : Nat)
    (read : readToken false text = some (token, after)) :
    readValue (fuel + 1) depth text = some (numberValue token, after) := by
  rcases isDigit_of_readToken read with ⟨digit, more, rfl, isDigit⟩
  rw [readValue.eq_def]
  dsimp only
  split
  case h_8 => simp [read]
  all_goals (rename_i equal; cases equal; cases isDigit)

theorem not_number_of_atDepth {depth : Nat} {container : Value} {number : Number}
    (other : container ≠ .number number) : atDepth depth container ≠ .number number := by
  intro same
  unfold atDepth at same
  split at same
  · exact other same
  · cases same

theorem exists_token_of_readValue {fuel depth : Nat} {text after : List Char} {number : Number}
    (read : readValue fuel depth text = some (.number number, after)) :
    ∃ negative token body, text = (if negative then '-' :: body else body) ∧
      readToken negative body = some (token, after) ∧ numberValue token = .number number := by
  cases fuel with
  | zero => simp [readValue] at read
  | succ fuel =>
      generalize result : Value.number number = value at read
      cases readFrom_of_readValue read with
      | @number negative body token written found =>
          exact ⟨negative, token, body, written, found, rfl⟩
      | array => exact absurd result.symm (not_number_of_atDepth Value.noConfusion)
      | object => exact absurd result.symm (not_number_of_atDepth Value.noConfusion)
      | null | bool | string | unreadable => cases result

theorem skipBlanks_of_not_blank {char : Char} {text : List Char}
    (other : char ≠ ' ' ∧ char ≠ '\n' ∧ char ≠ '\t' ∧ char ≠ '\r') :
    skipBlanks (char :: text) = char :: text := by
  simp [skipBlanks, other]

theorem skipBlanks_of_isDigit {digit : Char} {text : List Char} (isDigit : digit.isDigit = true) :
    skipBlanks (digit :: text) = digit :: text := by
  refine skipBlanks_of_not_blank ⟨?_, ?_, ?_, ?_⟩ <;> (intro equal; subst equal; cases isDigit)

theorem readValue_minus {text after : List Char} {token : Token} {fuel depth : Nat}
    (read : readToken true text = some (token, after)) :
    readValue (fuel + 1) depth ('-' :: text) = some (numberValue token, after) := by
  simp [readValue.eq_def, read]

theorem read_ofList (chars : List Char) :
    read (.ofList chars) =
      match readValue (2 * chars.length + 2) 0 (skipBlanks chars) with
      | some (value, rest) => if (skipBlanks rest).isEmpty then some value else none
      | none => none := by
  have opened (text : String) : read text =
      match readValue (2 * text.toList.length + 2) 0 (skipBlanks text.toList) with
      | some (value, rest) => if (skipBlanks rest).isEmpty then some value else none
      | none => none := rfl
  rw [opened, String.toList_ofList]

theorem readsAs_of_readsBack {depth : Nat} {number : Number} (back : number.ReadsBack) :
    ReadsAs depth number.text.toList (.number number) := by
  intro fuel rest enough ends
  unfold Number.ReadsBack read at back
  dsimp only at back
  split at back
  case h_2 => cases back
  case h_1 value after found =>
    split at back
    case isFalse => cases back
    case isTrue empty =>
      cases back
      rcases exists_token_of_readValue found with ⟨negative, token, body, equal, read, value⟩
      have nonempty : skipBlanks number.text.toList ≠ [] := by
        rw [equal]
        cases negative with
        | true => exact List.cons_ne_nil _ _
        | false =>
            rcases isDigit_of_readToken read with ⟨digit, more, rfl, _⟩
            exact List.cons_ne_nil _ _
      obtain ⟨fuel, rfl⟩ : ∃ more, fuel = more + 1 := by
        cases chars : number.text.toList with
        | nil => exact absurd (by rw [chars]; rfl) nonempty
        | cons first chars =>
            rw [chars, List.length_cons] at enough
            exact ⟨fuel - 1, by omega⟩
      have longer := readToken_append ends read
      refine ⟨after ++ rest, ?_, ?_⟩
      · rw [skipBlanks_append nonempty, equal, ← value]
        cases negative with
        | true => exact readValue_minus longer
        | false => exact readValue_of_readToken fuel depth longer
      · rw [List.isEmpty_iff] at empty
        unfold skipBlanks at empty ⊢
        rw [List.dropWhile_append, empty]
        rfl

theorem read_eq_some {text : String} {value : Value} {after : List Char}
    (found : ∀ fuel, 2 * text.toList.length ≤ fuel →
      readValue fuel 0 (skipBlanks text.toList) = some (value, after))
    (blank : skipBlanks after = []) : read text = some value := by
  unfold read
  simp only [found _ (Nat.le_add_right _ 2), blank, List.isEmpty_nil, if_true]

theorem readsBack_integer {value : Int} (low : -Int.pow 2 63 ≤ value)
    (high : value ≤ largestSignificand) : Number.ReadsBack (.integer value) := by
  have chars := toList_text_integer value
  split at chars
  case isTrue nonneg =>
    have small : value.toNat ≤ largestSignificand := by omega
    have number := number?_toDigits small
    have token := readToken_toDigits false value.toNat
    rcases isDigit_of_readToken token with ⟨digit, more, equal, isDigit⟩
    refine read_eq_some (fun fuel enough => ?_) (rfl : skipBlanks [] = [])
    rw [chars, equal, List.length_cons] at enough
    obtain ⟨fuel, rfl⟩ : ∃ more, fuel = more + 1 := ⟨fuel - 1, by omega⟩
    rw [chars, equal, skipBlanks_of_isDigit isDigit, ← equal, readValue_of_readToken _ 0 token]
    simp only [numberValue, number, Int.toNat_of_nonneg nonneg]
  case isFalse negative =>
    have bound : Int.pow 2 63 = ((Nat.pow 2 63 : Nat) : Int) := by decide
    have positive : 0 < (-value).toNat := by omega
    have number := number?_toDigits_of_negative positive (by omega)
    have same : -((-value).toNat : Int) = value := by omega
    refine read_eq_some (fun fuel enough => ?_) (rfl : skipBlanks [] = [])
    rw [chars, List.length_cons] at enough
    obtain ⟨fuel, rfl⟩ : ∃ more, fuel = more + 1 := ⟨fuel - 1, by omega⟩
    rw [chars, skipBlanks_of_not_blank (by decide), readValue_minus (readToken_toDigits true _)]
    simp only [numberValue, number, same]

theorem endsToken_nil : EndsToken [] := nofun

theorem endsToken_cons {char : Char} {text : List Char}
    (ends : char.isDigit = false ∧ char ≠ '.' ∧ char ≠ 'e' ∧ char ≠ 'E') :
    EndsToken (char :: text) := by
  intro first head
  cases head
  exact ends

theorem readsAs_string (depth : Nat) (text : String) :
    ReadsAs depth (quoted text).toList (.string text) := by
  intro fuel rest enough _
  rw [quoted, String.toList_ofList, List.cons_append, List.length_cons] at enough
  obtain ⟨fuel, rfl⟩ : ∃ more, fuel = more + 1 := ⟨fuel - 1, by omega⟩
  refine ⟨rest, ?_, rfl⟩
  rw [quoted, String.toList_ofList]
  simp only [List.cons_append, List.append_assoc, List.nil_append]
  rw [skipBlanks_of_not_blank (by decide), readValue.eq_def]
  simp [readUnits_flatMap_escapeChar, charsOfUnits_map_toNat]

/-! ## Containers -/

theorem atDepth_of_lt {depth : Nat} (shallow : depth < deepest) (container : Value) :
    atDepth (depth + 1) container = container :=
  if_pos shallow

theorem readValue_closing (fuel depth : Nat) {char : Char} (closes : char = ']' ∨ char = '\x7d')
    (text : List Char) : readValue fuel depth (char :: text) = none := by
  cases fuel with
  | zero => rw [readValue.eq_def]
  | succ fuel =>
      rcases closes with rfl | rfl
      · rw [readValue.eq_def]
        rfl
      · rw [readValue.eq_def]
        rfl

def itemsText (items : List Value) : List Char :=
  (",".intercalate (compactItems items)).toList

theorem itemsText_cons_cons (item next : Value) (items : List Value) :
    itemsText (item :: next :: items) =
      item.compact.toList ++ ',' :: itemsText (next :: items) := by
  simp [itemsText, compactItems, String.intercalate_cons_cons]

theorem readItems_itemsText {depth : Nat} {items : List Value} (nonempty : items ≠ [])
    (each : ∀ item ∈ items, ReadsAs depth item.compact.toList item) (fuel : Nat)
    (rest : List Char) (enough : 2 * (itemsText items).length < fuel) :
    readItems fuel depth (skipBlanks (itemsText items ++ ']' :: rest)) = some (items, rest) := by
  induction items generalizing fuel with
  | nil => exact absurd rfl nonempty
  | cons item items induction =>
    obtain ⟨fuel, rfl⟩ : ∃ more, fuel = more + 1 := ⟨fuel - 1, by omega⟩
    have readsItem := each item List.mem_cons_self
    cases items with
    | nil =>
        have single : itemsText [item] = item.compact.toList := by simp [itemsText, compactItems]
        rw [single] at enough ⊢
        rcases readsItem fuel (']' :: rest) (by omega) (endsToken_cons (by decide)) with
          ⟨after, read, left⟩
        rw [readItems.eq_def]
        rw [skipBlanks_of_not_blank (by decide)] at left
        simp only [read, left]
    | cons next items =>
        rw [itemsText_cons_cons, List.length_append, List.length_cons] at enough
        rw [itemsText_cons_cons, List.append_assoc, List.cons_append]
        rcases readsItem fuel (',' :: (itemsText (next :: items) ++ ']' :: rest)) (by omega)
          (endsToken_cons (by decide)) with ⟨after, read, left⟩
        have others := induction (List.cons_ne_nil _ _)
          (fun item member => each item (List.mem_cons_of_mem _ member)) fuel (by omega)
        rw [skipBlanks_of_not_blank (by decide)] at left
        rw [readItems.eq_def]
        simp only [read, left, others, Option.map_some]

theorem readValue_openBracket_nil (fuel depth : Nat) (rest : List Char) :
    readValue (fuel + 1) depth ('[' :: ']' :: rest) =
      some (atDepth (depth + 1) (.array []), rest) := by
  rw [readValue.eq_def]
  rfl

theorem readValue_openBracket {fuel depth : Nat} {text rest : List Char} {items : List Value}
    (read : readItems fuel (depth + 1) (skipBlanks text) = some (items, rest)) :
    readValue (fuel + 1) depth ('[' :: text) =
      some (atDepth (depth + 1) (.array items), rest) := by
  rw [readValue.eq_def]
  simp only []
  split
  case h_1 closed =>
    rw [closed] at read
    cases fuel with
    | zero => simp [readItems] at read
    | succ fuel => simp [readItems, readValue_closing fuel _ (.inl rfl)] at read
  case h_2 => rw [read]

theorem readsAs_array {depth : Nat} {items : List Value} (shallow : depth < deepest)
    (each : ∀ item ∈ items, ReadsAs (depth + 1) item.compact.toList item) :
    ReadsAs depth (Value.array items).compact.toList (.array items) := by
  have text : (Value.array items).compact.toList = '[' :: (itemsText items ++ [']']) := by
    simp [Value.compact, itemsText]
  intro fuel rest enough _
  rw [text, List.length_cons, List.length_append] at enough
  obtain ⟨fuel, rfl⟩ : ∃ more, fuel = more + 1 := ⟨fuel - 1, by omega⟩
  refine ⟨rest, ?_, rfl⟩
  rw [text, List.cons_append, List.append_assoc, List.singleton_append,
    skipBlanks_of_not_blank (by decide), ← atDepth_of_lt shallow (.array items)]
  cases items with
  | nil => exact readValue_openBracket_nil fuel depth rest
  | cons item items =>
      exact readValue_openBracket
        (readItems_itemsText (List.cons_ne_nil item items) each fuel rest (by omega))

def membersText (members : List (String × Value)) : List Char :=
  (",".intercalate (compactMembers members)).toList

theorem membersText_singleton (key : String) (value : Value) :
    membersText [(key, value)] = (quoted key).toList ++ ':' :: value.compact.toList := by
  simp [membersText, compactMembers]

theorem membersText_cons_cons (key : String) (value : Value) (next : String × Value)
    (members : List (String × Value)) :
    membersText ((key, value) :: next :: members) =
      (quoted key).toList ++
        ':' :: (value.compact.toList ++ ',' :: membersText (next :: members)) := by
  simp [membersText, compactMembers, String.intercalate_cons_cons]

theorem readUnits_quoted (text : String) (rest : List Char) :
    ∃ body, (quoted text).toList ++ rest = '"' :: body ∧
      readUnits body = some (text.toList.map Char.toNat, rest) := by
  refine ⟨text.toList.flatMap escapeChar ++ '"' :: rest, ?_, readUnits_flatMap_escapeChar _ _⟩
  rw [quoted, String.toList_ofList]
  simp

theorem skipBlanks_colon (text : List Char) : skipBlanks (':' :: text) = ':' :: text :=
  skipBlanks_of_not_blank (by decide)

theorem readMembers_membersText {depth : Nat} {members : List (String × Value)}
    (nonempty : members ≠ [])
    (each : ∀ member ∈ members, ReadsAs depth member.2.compact.toList member.2) (fuel : Nat)
    (rest : List Char) (enough : 2 * (membersText members).length < fuel) :
    readMembers fuel depth (skipBlanks (membersText members ++ '\x7d' :: rest)) =
      some (some members, rest) := by
  induction members generalizing fuel with
  | nil => exact absurd rfl nonempty
  | cons member members induction =>
    rcases member with ⟨key, value⟩
    obtain ⟨fuel, rfl⟩ : ∃ more, fuel = more + 1 := ⟨fuel - 1, by omega⟩
    have readsValue : ReadsAs depth value.compact.toList value :=
      each (key, value) List.mem_cons_self
    cases members with
    | nil =>
        rw [membersText_singleton, List.length_append, List.length_cons] at enough
        rcases readsValue fuel ('\x7d' :: rest) (by omega) (endsToken_cons (by decide)) with
          ⟨after, read, left⟩
        rw [skipBlanks_of_not_blank (by decide)] at left
        rw [membersText_singleton, List.append_assoc, List.cons_append]
        rcases readUnits_quoted key (':' :: (value.compact.toList ++ '\x7d' :: rest)) with
          ⟨body, text, units⟩
        rw [text, skipBlanks_of_not_blank (by decide), readMembers.eq_def]
        simp only [units, skipBlanks_colon, read, left,
          charsOfUnits_map_toNat, Option.map_some, String.ofList_toList]
    | cons next members =>
        rw [membersText_cons_cons] at enough ⊢
        simp only [List.length_append, List.length_cons] at enough
        rcases readsValue fuel (',' :: (membersText (next :: members) ++ '\x7d' :: rest)) (by omega)
          (endsToken_cons (by decide)) with ⟨after, read, left⟩
        have others := induction (List.cons_ne_nil _ _)
          (fun member among => each member (List.mem_cons_of_mem _ among)) fuel (by omega)
        rw [skipBlanks_of_not_blank (by decide)] at left
        rw [List.append_assoc, List.cons_append, List.append_assoc, List.cons_append]
        rcases readUnits_quoted key (':' :: (value.compact.toList ++
          ',' :: (membersText (next :: members) ++ '\x7d' :: rest))) with ⟨body, text, units⟩
        rw [text, skipBlanks_of_not_blank (by decide), readMembers.eq_def]
        simp only [units, skipBlanks_colon, read, left, others,
          charsOfUnits_map_toNat, Option.map_some, String.ofList_toList]

theorem readValue_openBrace_nil (fuel depth : Nat) (rest : List Char) :
    readValue (fuel + 1) depth ('\x7b' :: '\x7d' :: rest) =
      some (atDepth (depth + 1) (.object []), rest) := by
  rw [readValue.eq_def]
  rfl

theorem readValue_openBrace {fuel depth : Nat} {text rest : List Char}
    {members : List (String × Value)}
    (read : readMembers fuel (depth + 1) (skipBlanks text) = some (some members, rest)) :
    readValue (fuel + 1) depth ('\x7b' :: text) =
      some (atDepth (depth + 1) (.object members), rest) := by
  rw [readValue.eq_def]
  simp only []
  split
  case h_1 closed =>
    rw [closed] at read
    cases fuel with
    | zero => simp [readMembers] at read
    | succ fuel => simp [readMembers] at read
  case h_2 => rw [read]

theorem readsAs_object {depth : Nat} {members : List (String × Value)} (shallow : depth < deepest)
    (each : ∀ member ∈ members, ReadsAs (depth + 1) member.2.compact.toList member.2) :
    ReadsAs depth (Value.object members).compact.toList (.object members) := by
  have text : (Value.object members).compact.toList =
      '\x7b' :: (membersText members ++ ['\x7d']) := by
    simp [Value.compact, membersText]
  intro fuel rest enough _
  rw [text, List.length_cons, List.length_append] at enough
  obtain ⟨fuel, rfl⟩ : ∃ more, fuel = more + 1 := ⟨fuel - 1, by omega⟩
  refine ⟨rest, ?_, rfl⟩
  rw [text, List.cons_append, List.append_assoc, List.singleton_append,
    skipBlanks_of_not_blank (by decide), ← atDepth_of_lt shallow (.object members)]
  cases members with
  | nil => exact readValue_openBrace_nil fuel depth rest
  | cons member members =>
      exact readValue_openBrace
        (readMembers_membersText (List.cons_ne_nil member members) each fuel rest (by omega))

/-! ## Whole values -/

theorem mem_itemNumbers {number : Number} {item : Value} {items : List Value} (among : item ∈ items)
    (held : number ∈ item.numbers) : number ∈ itemNumbers items := by
  induction items with
  | nil => cases among
  | cons first items induction =>
      rw [itemNumbers, List.mem_append]
      rcases List.mem_cons.mp among with rfl | among
      · exact .inl held
      · exact .inr (induction among)

theorem mem_memberNumbers {number : Number} {member : String × Value}
    {members : List (String × Value)} (among : member ∈ members)
    (held : number ∈ member.2.numbers) : number ∈ memberNumbers members := by
  induction members with
  | nil => cases among
  | cons first members induction =>
      rcases first with ⟨key, value⟩
      rw [memberNumbers, List.mem_append]
      rcases List.mem_cons.mp among with rfl | among
      · exact .inl held
      · exact .inr (induction among)

theorem readsAs_compact {depth : Nat} {value : Value} (fits : value.Fits false depth)
    (floats : ∀ float : Binary64, float.isFinite = true → .float float ∈ value.numbers →
      Number.ReadsBack (.float float)) :
    ReadsAs depth value.compact.toList value := by
  induction fits with
  | null =>
      intro fuel rest enough _
      cases fuel with
      | zero => exact absurd enough (by decide)
      | succ fuel => exact ⟨rest, rfl, rfl⟩
  | bool value =>
      intro fuel rest enough _
      cases fuel with
      | zero => cases value <;> exact absurd enough (by decide)
      | succ fuel => cases value <;> exact ⟨rest, rfl, rfl⟩
  | integer low high => exact readsAs_of_readsBack (readsBack_integer low high)
  | float finite =>
      exact readsAs_of_readsBack (floats _ finite List.mem_cons_self)
  | string text => exact readsAs_string _ text
  | unreadable allowed => cases allowed
  | array shallow _ each =>
      exact readsAs_array shallow fun item among =>
        each item among fun float finite held => floats float finite (mem_itemNumbers among held)
  | object shallow _ each =>
      exact readsAs_object shallow fun member among =>
        each member among fun float finite held =>
          floats float finite (mem_memberNumbers among held)

theorem read_compact {value : Value} (fits : value.Fits false 0)
    (floats : ∀ float : Binary64, float.isFinite = true → .float float ∈ value.numbers →
      Number.ReadsBack (.float float)) :
    read value.compact = some value := by
  have reads := readsAs_compact fits floats
  unfold read
  rcases reads (2 * value.compact.toList.length + 2) [] (Nat.le_add_right _ 2) endsToken_nil with
    ⟨after, found, left⟩
  rw [List.append_nil] at found
  have blank : (skipBlanks after).isEmpty = true := by
    rw [left]
    rfl
  simp only [found, blank, if_true]

end SchemaDdl.Json
