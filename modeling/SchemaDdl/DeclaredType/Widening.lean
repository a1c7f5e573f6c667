import SchemaDdl.DeclaredType

/-!
# Widening

When a change of a declared type keeps every value: whole numbers into larger ones or into decimals
with enough places, longer texts, decimals with room for all digits. A text of fixed length widens
to a longer one only, for a cast to another text type drops the blanks it was filled up with.
-/

namespace SchemaDdl.DeclaredType

def integerDigits? (canonical : String) : Option Nat :=
  [("smallint", 5), ("integer", 10), ("bigint", 19)].lookup
    ((serialBase? canonical).getD canonical)

/-- Whether decimals with the given modifiers hold whole numbers of some digits. -/
def holdsDigits (digits : Nat) : (modifiers : List Nat) → Bool
  | [] => true
  | [precision] => digits ≤ precision
  | precision :: scale :: _ => digits ≤ precision - scale

/-- The digits before and after the point of decimals with modifiers; a missing scale is zero. -/
def decimalPlaces? : (modifiers : List Nat) → Option (Nat × Nat)
  | [] => none
  | [precision] => some (precision, 0)
  | precision :: scale :: _ => some (precision - scale, scale)

def decimalFits (old new : List Nat) : Bool :=
  match decimalPlaces? old, decimalPlaces? new with
  | _, none => true
  | none, some _ => false
  | some (oldWhole, oldScale), some (newWhole, newScale) =>
      oldScale ≤ newScale && oldWhole ≤ newWhole

/-- Whether texts bounded by the old modifiers fit the new ones; no modifier is no bound. -/
def lengthFits (old new : List Nat) : Bool :=
  match old, new with
  | _, [] => true
  | [], _ :: _ => false
  | oldLength :: _, newLength :: _ => oldLength ≤ newLength

/-- Whether texts of a fixed length fit a length. Both lengths have to be written. -/
def fixedLengthFits (old new : List Nat) : Bool :=
  match old, new with
  | oldLength :: _, newLength :: _ => oldLength ≤ newLength
  | _, _ => false

/-- `isWidening` on canonical base names and modifiers, unless both are the same. -/
def widens (old : String) (oldModifiers : List Nat) (new : String) (newModifiers : List Nat) :
    Bool :=
  match integerDigits? old, integerDigits? new with
  | some oldDigits, some newDigits => oldDigits ≤ newDigits
  | some oldDigits, none => new == "numeric" && holdsDigits oldDigits newModifiers
  | none, _ =>
      match old, new with
      | "real", "double precision" => true
      | "timestamp", "timestamptz" => true
      | "varchar", "text" => true
      | "varchar", "varchar" => lengthFits oldModifiers newModifiers
      | "char", "char" => fixedLengthFits oldModifiers newModifiers
      | "numeric", "numeric" => decimalFits oldModifiers newModifiers
      | _, _ => false

/-- Whether a change from one declared type to another keeps every value. -/
def isWidening (old new : String) : Bool :=
  (normalized old == normalized new && modifiers old == modifiers new)
    || widens (normalized old) (modifiers old) (normalized new) (modifiers new)

example : isWidening "integer" "numeric(12, 2)" = true := by decide +kernel
example : isWidening "char(3)" "text" = false := by decide +kernel

end SchemaDdl.DeclaredType
