import SchemaDdl.Number.Decimal

/-!
# Characters of numbers

A number in a statement is made of digits, a point and a sign, so it is never taken for a word or
for the end of a line.
-/

namespace SchemaDdl

namespace Text

/-- The characters of numbers. -/
def isNumeral (char : Char) : Bool :=
  char.isDigit || char == '.' || char == '-'

def Numeral (text : List Char) : Prop :=
  ∀ char ∈ text, isNumeral char = true

instance (text : List Char) : Decidable (Numeral text) :=
  List.decidableBAll (isNumeral · = true) text

theorem Numeral.not_mem {text : List Char} {char : Char} (numeral : Numeral text)
    (other : isNumeral char = false) : char ∉ text :=
  fun member => Bool.eq_false_iff.mp other (numeral char member)

@[simp] theorem numeral_append {left right : List Char} :
    Numeral (left ++ right) ↔ Numeral left ∧ Numeral right :=
  List.forall_mem_append

@[simp] theorem numeral_cons {char : Char} {text : List Char} :
    Numeral (char :: text) ↔ isNumeral char = true ∧ Numeral text :=
  List.forall_mem_cons

theorem numeral_reverse {text : List Char} : Numeral text.reverse ↔ Numeral text := by
  simp only [Numeral, List.mem_reverse]

theorem Numeral.of_sublist {text part : List Char} (numeral : Numeral text)
    (sublist : part.Sublist text) : Numeral part :=
  fun char member => numeral char (sublist.mem member)

theorem numeral_replicate_zero (count : Nat) : Numeral (List.replicate count '0') := by
  intro char member
  rw [(List.mem_replicate.mp member).2]
  rfl

theorem numeral_toDigits (value : Nat) : Numeral (Nat.toDigits 10 value) := by
  intro char member
  have digit := Nat.isDigit_of_mem_toDigits (by decide) (by decide) member
  simp [isNumeral, digit]

theorem numeral_toString_int (value : Int) : Numeral (toString value).toList := by
  rw [Int.toString_eq_repr, Int.repr_eq_if]
  split
  · rw [Nat.toList_repr]
    exact numeral_toDigits _
  · rw [String.toList_append, Nat.toList_repr, numeral_append]
    exact ⟨by decide, numeral_toDigits _⟩

end Text

namespace Binary64

open Text

theorem numeral_shortest (number : Binary64) : Numeral number.shortest.digits := by
  unfold shortest
  split
  · decide
  · exact numeral_reverse.mpr
      ((numeral_reverse.mpr (numeral_toDigits _)).of_sublist (List.dropWhile_sublist _))

theorem numeral_positional {decimal : Decimal} (digits : Numeral decimal.digits) :
    Numeral (positional decimal) := by
  have point : isNumeral '.' = true := rfl
  have zeros := numeral_replicate_zero
  have taken (count : Nat) := digits.of_sublist (List.take_sublist count decimal.digits)
  have dropped (count : Nat) := digits.of_sublist (List.drop_sublist count decimal.digits)
  unfold positional
  simp only []
  split
  · simp [digits, zeros, point, show isNumeral '0' = true from rfl]
  · split
    · simp [taken, dropped, point]
    · simp [digits, zeros]

theorem numeral_signed {number : Binary64} {text : List Char} (plain : Numeral text) :
    Numeral (number.signed text).toList := by
  unfold signed
  rw [String.toList_ofList]
  split
  · exact numeral_cons.mpr ⟨rfl, plain⟩
  · exact plain

theorem numeral_toPlain {number : Binary64} (finite : number.isFinite = true) :
    Numeral number.toPlain.toList := by
  have defined : number.isNaN = false := by
    simp only [isFinite, isNaN, decide_eq_true_eq, decide_eq_false_iff_not] at finite ⊢
    omega
  rw [toPlain, if_neg (Bool.eq_false_iff.mp defined), if_pos finite]
  exact numeral_signed (numeral_positional number.numeral_shortest)

end Binary64

end SchemaDdl
