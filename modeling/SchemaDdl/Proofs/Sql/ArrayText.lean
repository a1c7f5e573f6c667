import SchemaDdl.Proofs.Number.Layout
import SchemaDdl.Proofs.Writing.Default

/-!
# Reading array texts

`readArray?` reads the text of an array as Postgres does: braces nest, commas separate, a quoted
element is a string with backslash escapes, and a bare word is itself or null. What is written for
JSON items is read as these items, whatever their strings hold, so different items have different
texts.
-/

namespace SchemaDdl

/-! ## JSON values -/

/-- Whether a JSON text can denote a value: every part of it is readable, and its numbers are
finite. -/
inductive Json.Value.IsDenotable : Json.Value → Prop
  | null : IsDenotable .null
  | bool (value : Bool) : IsDenotable (.bool value)
  | number {number : Json.Number} (finite : number.IsFinite) : IsDenotable (.number number)
  | string (text : String) : IsDenotable (.string text)
  | array {items : List Json.Value} (each : ∀ item ∈ items, IsDenotable item) :
      IsDenotable (.array items)
  | object {members : List (String × Json.Value)}
      (each : ∀ member ∈ members, IsDenotable member.2) : IsDenotable (.object members)

/-- Whether an object occurs in a value, at any depth of arrays. -/
inductive Json.Value.HoldsObject : Json.Value → Prop
  | object (members : List (String × Json.Value)) : HoldsObject (.object members)
  | array {items : List Json.Value} {item : Json.Value} (member : item ∈ items)
      (holds : HoldsObject item) : HoldsObject (.array items)

theorem Json.Value.isItem_iff {value : Json.Value} (denotable : value.IsDenotable) :
    value.IsItem ↔ ¬value.HoldsObject := by
  induction denotable with
  | null => exact iff_of_true .null fun holds => by cases holds
  | bool value => exact iff_of_true (.bool value) fun holds => by cases holds
  | number => exact iff_of_true (.number _) fun holds => by cases holds
  | string text => exact iff_of_true (.string text) fun holds => by cases holds
  | array _ induction =>
      constructor
      · intro item holds
        cases item with
        | array _ each =>
            cases holds with
            | array member holds => exact (induction _ member).mp (each _ member) holds
      · intro free
        exact .array _ fun item member =>
          (induction item member).mpr fun holds => free (.array member holds)
  | object =>
      refine iff_of_false (fun item => ?_) fun free => free (.object _)
      cases item

namespace Sql

/-! ## The reader -/

inductive Element where
  | null
  | word (text : String)
  | string (text : String)
  | array (items : List Element)
deriving Repr, Inhabited

def isBare (char : Char) : Bool :=
  char != '\x7b' && char != '\x7d' && char != ',' && char != '"' && char != '\\'

def readQuoted : List Char → Option (List Char × List Char)
  | [] => none
  | '"' :: rest => some ([], rest)
  | '\\' :: char :: rest => (readQuoted rest).map fun (chars, after) => (char :: chars, after)
  | char :: rest => (readQuoted rest).map fun (chars, after) => (char :: chars, after)

def bareElement (word : String) : Element :=
  if word = "NULL" then .null else .word word

mutual
def readElement : (fuel : Nat) → List Char → Option (Element × List Char)
  | 0, _ => none
  | fuel + 1, text =>
      match text with
      | '"' :: rest =>
          (readQuoted rest).map fun (chars, after) => (.string (String.ofList chars), after)
      | '\x7b' :: '\x7d' :: rest => some (.array [], rest)
      | '\x7b' :: rest =>
          (readElements fuel rest).map fun (items, after) => (.array items, after)
      | text =>
          match text.takeWhile isBare with
          | [] => none
          | word => some (bareElement (String.ofList word), text.dropWhile isBare)

def readElements : (fuel : Nat) → List Char → Option (List Element × List Char)
  | 0, _ => none
  | fuel + 1, text =>
      match readElement fuel text with
      | some (item, '\x7d' :: after) => some ([item], after)
      | some (item, ',' :: rest) =>
          (readElements fuel rest).map fun (items, after) => (item :: items, after)
      | _ => none
end

/-- The elements of an array text. No character takes more than two calls, one for an element and
one for the elements from it on. -/
def readArray? (text : String) : Option (List Element) :=
  match readElement (2 * text.toList.length) text.toList with
  | some (.array items, []) => some items
  | _ => none

/-! ## The elements of JSON items -/

mutual
def element? : Json.Value → Option Element
  | .null => some .null
  | .bool value => some (.word (if value then "true" else "false"))
  | .number number => some (.word number.text)
  | .string text => some (.string text)
  | .array items => (elements? items).map .array
  | .object _ | .unreadable => none

def elements? : List Json.Value → Option (List Element)
  | [] => some []
  | item :: items =>
      match element? item, elements? items with
      | some item, some items => some (item :: items)
      | _, _ => none
end

/-! ## Reading what is written -/

def ReadsAs (text : List Char) (element : Element) : Prop :=
  ∀ fuel rest, 2 * text.length ≤ fuel → (∀ next ∈ rest.head?, isBare next = false) →
    readElement fuel (text ++ rest) = some (element, rest)

theorem readElement_closing (fuel : Nat) (rest : List Char) :
    readElement fuel ('}' :: rest) = none := by
  cases fuel with
  | zero => rw [readElement]
  | succ fuel =>
      rw [readElement.eq_def]
      rfl

theorem exists_cons_of_readElements {fuel : Nat} {text after : List Char} {elements : List Element}
    (read : readElements fuel text = some (elements, after)) :
    ∃ first rest, text = first :: rest ∧ first ≠ '\x7d' := by
  cases fuel with
  | zero => cases read
  | succ fuel =>
      rw [readElements] at read
      cases text with
      | nil =>
          have empty : readElement fuel [] = none := by
            cases fuel with
            | zero => rw [readElement]
            | succ fuel =>
                rw [readElement.eq_def]
                rfl
          rw [empty] at read
          cases read
      | cons first rest =>
          refine ⟨first, rest, rfl, ?_⟩
          rintro rfl
          rw [readElement_closing] at read
          cases read

theorem readsAs_word (word : String) (nonempty : word.toList ≠ [])
    (bare : ∀ char ∈ word.toList, isBare char = true) :
    ReadsAs word.toList (bareElement word) := by
  intro fuel rest enough stops
  obtain ⟨first, chars, shape⟩ := List.exists_cons_of_ne_nil nonempty
  have taken : (word.toList ++ rest).takeWhile isBare = first :: chars := by
    rw [Text.takeWhile_append_of_stop (List.all_eq_true.mpr bare) stops, shape]
  have dropped := Text.dropWhile_append_of_stop (List.all_eq_true.mpr bare) stops
  have firstBare : isBare first = true := bare first (by rw [shape]; exact List.mem_cons_self)
  have whole : String.ofList (first :: chars) = word := by rw [← shape, String.ofList_toList]
  rw [shape, List.length_cons] at enough
  obtain ⟨fuel, rfl⟩ : ∃ more, fuel = more + 1 := ⟨fuel - 1, by omega⟩
  rw [readElement.eq_def]
  dsimp only
  split
  case h_4 =>
    rw [taken, dropped]
    dsimp only
    rw [whole]
  all_goals
    rename_i equal
    rw [shape, List.cons_append] at equal
    rw [(List.cons.inj equal).1] at firstBare
    cases firstBare

theorem readQuoted_escaped (chars rest : List Char) :
    readQuoted (chars.flatMap (fun c => if c = '\\' ∨ c = '"' then ['\\', c] else [c]) ++
      '"' :: rest) = some (chars, rest) := by
  induction chars with
  | nil => rw [List.flatMap_nil, List.nil_append, readQuoted]
  | cons char chars induction =>
      rw [List.flatMap_cons, List.append_assoc]
      split
      case isTrue special =>
        rw [List.cons_append, List.singleton_append, readQuoted, induction]
        rfl
      case isFalse plain =>
        rw [List.singleton_append, readQuoted, induction]
        · rfl
        all_goals simp_all

theorem readsAs_arrayElement (text : String) :
    ReadsAs (arrayElement text).toList (.string text) := by
  intro fuel rest enough _
  rw [arrayElement, String.toList_ofList, List.cons_append, List.length_cons] at enough
  obtain ⟨fuel, rfl⟩ : ∃ more, fuel = more + 1 := ⟨fuel - 1, by omega⟩
  rw [arrayElement, String.toList_ofList, List.cons_append, List.cons_append, List.append_assoc,
    List.singleton_append, readElement.eq_def]
  simp [readQuoted_escaped]

def itemsText (texts : List String) : List Char :=
  (Text.join "," texts).toList

theorem itemsText_cons_cons (text next : String) (texts : List String) :
    itemsText (text :: next :: texts) = text.toList ++ ',' :: itemsText (next :: texts) := by
  simp [itemsText, Text.join, String.intercalate_cons_cons]

/-- Whether a value is read back as its element from its text. -/
def ReadsBack (value : Json.Value) : Prop :=
  ∀ text, arrayItem? value = some text →
    ∃ element, element? value = some element ∧ ReadsAs text.toList element

theorem arrayItems?_cons (item : Json.Value) (items : List Json.Value) :
    arrayItems? (item :: items) =
      (arrayItem? item).bind fun text => (arrayItems? items).map (text :: ·) := by
  rw [arrayItems?]
  cases arrayItem? item <;> cases arrayItems? items <;> rfl

theorem elements?_cons (item : Json.Value) (items : List Json.Value) :
    elements? (item :: items) =
      (element? item).bind fun element => (elements? items).map (element :: ·) := by
  rw [elements?]
  cases element? item <;> cases elements? items <;> rfl

theorem exists_cons_of_bind {α : Type} {first : Option α} {others : Option (List α)}
    {whole : List α} (found : (first.bind fun item => others.map (item :: ·)) = some whole) :
    ∃ item items, first = some item ∧ others = some items ∧ whole = item :: items := by
  obtain ⟨item, here, behind⟩ := Option.bind_eq_some_iff.mp found
  obtain ⟨items, there, rfl⟩ := Option.map_eq_some_iff.mp behind
  exact ⟨item, items, here, there, rfl⟩

theorem readElements_itemsText {item : Json.Value} {items : List Json.Value}
    (each : ∀ value ∈ item :: items, ReadsBack value) {texts : List String}
    (found : arrayItems? (item :: items) = some texts) :
    ∃ elements, elements? (item :: items) = some elements ∧
      ∀ fuel rest, 2 * (itemsText texts).length + 1 ≤ fuel →
        readElements fuel (itemsText texts ++ '\x7d' :: rest) = some (elements, rest) := by
  induction items generalizing item texts with
  | nil =>
      obtain ⟨text, others, written, none, rfl⟩ :=
        exists_cons_of_bind ((arrayItems?_cons _ _).symm.trans found)
      cases none
      obtain ⟨element, same, reads⟩ := each item List.mem_cons_self text written
      refine ⟨[element], by simp [elements?, same], fun fuel rest enough => ?_⟩
      have single : itemsText [text] = text.toList := by
        simp [itemsText, Text.join, String.intercalate_singleton]
      rw [single] at enough ⊢
      obtain ⟨fuel, rfl⟩ : ∃ more, fuel = more + 1 := ⟨fuel - 1, by omega⟩
      have read := reads fuel ('\x7d' :: rest) (by omega) (by simp [isBare])
      rw [readElements, read]
      rfl
  | cons next items induction =>
      obtain ⟨text, others, written, more, rfl⟩ :=
        exists_cons_of_bind ((arrayItems?_cons _ _).symm.trans found)
      obtain ⟨second, others, _, _, rfl⟩ :=
        exists_cons_of_bind ((arrayItems?_cons _ _).symm.trans more)
      obtain ⟨element, same, reads⟩ := each item List.mem_cons_self text written
      obtain ⟨elements, behind, readsOthers⟩ :=
        induction (fun value member => each value (List.mem_cons_of_mem item member)) more
      refine ⟨element :: elements, by rw [elements?, same, behind], fun fuel rest enough => ?_⟩
      rw [itemsText_cons_cons] at enough ⊢
      rw [List.length_append, List.length_cons] at enough
      obtain ⟨fuel, rfl⟩ : ∃ more, fuel = more + 1 := ⟨fuel - 1, by omega⟩
      have read := reads fuel (',' :: (itemsText (second :: others) ++ '\x7d' :: rest)) (by omega)
        (by simp [isBare])
      rw [List.append_assoc, List.cons_append, readElements, read]
      simp only [readsOthers fuel rest (by omega), Option.map_some]

theorem readsBack_array {items : List Json.Value} (each : ∀ item ∈ items, ReadsBack item) :
    ReadsBack (.array items) := by
  intro text written
  rw [arrayItem?] at written
  obtain ⟨texts, found, rfl⟩ := Option.map_eq_some_iff.mp written
  have shape : ("\x7b" ++ Text.join "," texts ++ "\x7d").toList =
      '\x7b' :: itemsText texts ++ ['\x7d'] := by
    simp [itemsText]
  cases items with
  | nil =>
      cases found
      refine ⟨.array [], rfl, fun fuel rest enough _ => ?_⟩
      rw [shape, List.cons_append, List.length_cons] at enough
      obtain ⟨fuel, rfl⟩ : ∃ more, fuel = more + 1 := ⟨fuel - 1, by omega⟩
      rw [shape]
      rfl
  | cons item items =>
      obtain ⟨elements, same, reads⟩ := readElements_itemsText each found
      refine ⟨.array elements, by rw [element?, same]; rfl, fun fuel rest enough _ => ?_⟩
      rw [shape, List.length_append, List.length_cons, List.length_singleton] at enough
      obtain ⟨fuel, rfl⟩ : ∃ more, fuel = more + 1 := ⟨fuel - 1, by omega⟩
      have read := reads fuel rest (by omega)
      obtain ⟨first, others, begins, other⟩ := exists_cons_of_readElements read
      rw [shape, List.append_assoc, List.cons_append, List.singleton_append, begins,
        readElement.eq_def]
      rw [begins] at read
      simp [other, read]

theorem isBare_of_isTextChar {char : Char} (numeric : Json.Number.IsTextChar char) :
    isBare char = true := by
  by_contra special
  simp only [isBare, Bool.and_eq_true, bne_iff_ne, not_and_or, ne_eq, not_not] at special
  rcases special with (((rfl | rfl) | rfl) | rfl) | rfl
  all_goals simp [Json.Number.IsTextChar, Text.isNumeral] at numeric

theorem text_ne_of_mem {number : Json.Number} (finite : number.IsFinite) {word : String}
    (char : Char) (member : char ∈ word.toList) (other : ¬Json.Number.IsTextChar char) :
    number.text ≠ word := by
  rintro rfl
  exact other (Json.Number.isTextChar_text finite char member)

theorem readsAs_number {number : Json.Number} (finite : number.IsFinite) :
    ReadsAs number.text.toList (.word number.text) := by
  have word := readsAs_word number.text (Json.Number.text_ne_empty finite) fun char member =>
    isBare_of_isTextChar (Json.Number.isTextChar_text finite char member)
  have notNull : number.text ≠ "NULL" :=
    text_ne_of_mem finite 'N' (by simp) (by simp [Json.Number.IsTextChar, Text.isNumeral])
  rwa [bareElement, if_neg notNull] at word

theorem readsBack {value : Json.Value} (denotable : value.IsDenotable) : ReadsBack value := by
  induction denotable with
  | null =>
      intro text written
      cases written
      exact ⟨.null, rfl, readsAs_word "NULL" (by simp) (by simp [isBare])⟩
  | bool value =>
      intro text written
      cases written
      refine ⟨_, rfl, ?_⟩
      cases value with
      | false => exact readsAs_word "false" (by simp) (by simp [isBare])
      | true => exact readsAs_word "true" (by simp) (by simp [isBare])
  | @number number finite =>
      intro text written
      cases written
      exact ⟨_, rfl, readsAs_number finite⟩
  | string text =>
      intro _ written
      cases written
      exact ⟨_, rfl, readsAs_arrayElement text⟩
  | array _ induction => exact readsBack_array induction
  | object => nofun

variable {items : List Json.Value} {text : String}

theorem readArray?_arrayText? (denotable : ∀ item ∈ items, item.IsDenotable)
    (written : arrayText? items = some text) :
    ∃ elements, elements? items = some elements ∧ readArray? text = some elements := by
  obtain ⟨element, whole, reads⟩ :=
    readsBack_array (fun item member => readsBack (denotable item member)) text written
  rw [element?] at whole
  obtain ⟨elements, same, rfl⟩ := Option.map_eq_some_iff.mp whole
  have read := reads _ [] (Nat.le_refl _) nofun
  rw [List.append_nil] at read
  exact ⟨elements, same, by rw [readArray?, read]⟩

example : readArray? "\x7bNULL,\"NULL\",\x7b\x7d\x7d" =
    some [.null, .string "NULL", .array []] := by
  cbv

theorem arrayText?_eq_none_iff (denotable : ∀ item ∈ items, item.IsDenotable) :
    arrayText? items = none ↔ ∃ item ∈ items, item.HoldsObject := by
  have whole := Json.Value.isItem_iff (.array denotable)
  rw [arrayText?, ← Option.not_isSome_iff_eq_none, isSome_arrayItem?, whole, not_not]
  constructor
  · intro holds
    cases holds with
    | array member holds => exact ⟨_, member, holds⟩
  · rintro ⟨item, member, holds⟩
    exact .array member holds

/-! ## Different items -/

def IsSole (value : Json.Value) : Prop :=
  ∀ (other : Json.Value) (element : Element), other.IsDenotable → element? value = some element →
    element? other = some element → value = other

theorem elements?_injective (each : ∀ item ∈ items, IsSole item) {others : List Json.Value}
    {elements : List Element} (denotable : ∀ other ∈ others, other.IsDenotable)
    (left : elements? items = some elements) (right : elements? others = some elements) :
    items = others := by
  induction items generalizing others elements with
  | nil =>
      cases left
      cases others with
      | nil => rfl
      | cons other others =>
          obtain ⟨_, _, _, _, impossible⟩ :=
            exists_cons_of_bind ((elements?_cons _ _).symm.trans right)
          cases impossible
  | cons item items induction =>
      obtain ⟨element, rest, first, behind, rfl⟩ :=
        exists_cons_of_bind ((elements?_cons _ _).symm.trans left)
      cases others with
      | nil => cases right
      | cons other others =>
          obtain ⟨otherElement, otherRest, otherFirst, otherBehind, same⟩ :=
            exists_cons_of_bind ((elements?_cons _ _).symm.trans right)
          cases same
          have head := each item List.mem_cons_self other element
            (denotable other List.mem_cons_self) first otherFirst
          have tail := induction (fun item member => each item (List.mem_cons_of_mem _ member))
            (fun other member => denotable other (List.mem_cons_of_mem _ member)) behind otherBehind
          rw [head, tail]

theorem text_ne_bool {number : Json.Number} (finite : number.IsFinite) (value : Bool) :
    number.text ≠ if value then "true" else "false" := by
  cases value with
  | false =>
      exact text_ne_of_mem finite 'f' (by simp)
        (by simp [Json.Number.IsTextChar, Text.isNumeral])
  | true =>
      exact text_ne_of_mem finite 't' (by simp)
        (by simp [Json.Number.IsTextChar, Text.isNumeral])

theorem isSole {value : Json.Value} (denotable : value.IsDenotable) : IsSole value := by
  induction denotable with
  | null =>
      intro other element _ left right
      cases left
      cases other with
      | null => rfl
      | _ => simp [element?] at right
  | bool value =>
      intro other element otherDenotable left right
      cases left
      cases other with
      | bool other => cases value <;> cases other <;> simp [element?] at right ⊢
      | number number =>
          cases otherDenotable with
          | number finite =>
              simp only [element?, Option.some.injEq, Element.word.injEq] at right
              exact absurd right (text_ne_bool finite value)
      | _ => simp [element?] at right
  | @number number finite =>
      intro other element otherDenotable left right
      cases left
      cases other with
      | bool other =>
          simp only [element?, Option.some.injEq, Element.word.injEq] at right
          exact absurd right.symm (text_ne_bool finite other)
      | number other =>
          cases otherDenotable with
          | number otherFinite =>
              simp only [element?, Option.some.injEq, Element.word.injEq] at right
              rw [Json.Number.text_injective otherFinite finite right]
      | _ => simp [element?] at right
  | string text =>
      intro other element _ left right
      cases left
      cases other with
      | string other =>
          simp only [element?, Option.some.injEq, Element.string.injEq] at right
          rw [right]
      | _ => simp [element?] at right
  | array _ induction =>
      intro other element otherDenotable left right
      obtain ⟨elements, leftItems, rfl⟩ := Option.map_eq_some_iff.mp left
      cases other with
      | array others =>
          cases otherDenotable with
          | array each =>
              obtain ⟨otherElements, rightItems, same⟩ := Option.map_eq_some_iff.mp right
              cases same
              rw [elements?_injective induction each leftItems rightItems]
      | _ => simp [element?] at right
  | object => nofun

/-- Array texts decode to their items: there is none exactly when an object occurs at some depth, it
is read as the items it was written for, and no other items have it. -/
theorem arrayText?_decodes (items : List Json.Value)
    (denotable : ∀ item ∈ items, item.IsDenotable) :
    (arrayText? items = none ↔ ∃ item ∈ items, item.HoldsObject) ∧
      ∀ text, arrayText? items = some text →
        (∃ elements, elements? items = some elements ∧ readArray? text = some elements) ∧
          ∀ others : List Json.Value, (∀ other ∈ others, other.IsDenotable) →
            arrayText? others = some text → items = others := by
  refine ⟨arrayText?_eq_none_iff denotable, fun text written => ?_⟩
  obtain ⟨elements, same, read⟩ := readArray?_arrayText? denotable written
  refine ⟨⟨elements, same, read⟩, fun others otherDenotable otherWritten => ?_⟩
  obtain ⟨otherElements, otherSame, otherRead⟩ := readArray?_arrayText? otherDenotable otherWritten
  rw [read, Option.some.injEq] at otherRead
  rw [← otherRead] at otherSame
  exact elements?_injective (fun item member => isSole (denotable item member)) otherDenotable same
    otherSame

def nestedItems : List Json.Value :=
  [.string "NULL", .null, .array [.string "a,\x7d\"\\", .bool true]]

theorem arrayText?_decodes_nested :
    (∀ item ∈ nestedItems, item.IsDenotable) ∧
      (arrayText? nestedItems = none ↔ ∃ item ∈ nestedItems, item.HoldsObject) ∧
      ∃ elements, elements? nestedItems = some elements ∧
        readArray? "\x7b\"NULL\",NULL,\x7b\"a,\x7d\\\"\\\\\",true\x7d\x7d" = some elements := by
  have denotable : ∀ item ∈ nestedItems, item.IsDenotable := by
    simp only [nestedItems, List.forall_mem_cons]
    refine ⟨.string _, .null, .array ?_, nofun⟩
    simp only [List.forall_mem_cons]
    exact ⟨.string _, .bool true, nofun⟩
  have decodes := arrayText?_decodes nestedItems denotable
  exact ⟨denotable, decodes.1, (decodes.2 _ (by cbv)).1⟩

end Sql

end SchemaDdl
