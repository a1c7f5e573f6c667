import Mathlib.Algebra.GroupWithZero.Nat
import SchemaDdl.Text.Segment

/-!
# Sizes of texts

The size of a text in characters, in bytes, or in another measure of its characters, and the parts
of a text between two offsets in bytes.
-/

namespace SchemaDdl.Text

def sizeBy (measure : Char → Nat) (text : List Char) : Nat :=
  (text.map measure).sum

def byteSize (text : List Char) : Nat :=
  sizeBy Char.utf8Size text

variable {measure : Char → Nat} {text : List Char}

@[simp] theorem sizeBy_nil : sizeBy measure [] = 0 :=
  rfl

@[simp] theorem sizeBy_cons (char : Char) (text : List Char) :
    sizeBy measure (char :: text) = measure char + sizeBy measure text := by
  simp [sizeBy]

@[simp] theorem sizeBy_append (front back : List Char) :
    sizeBy measure (front ++ back) = sizeBy measure front + sizeBy measure back := by
  simp [sizeBy]

@[simp] theorem sizeBy_one (text : List Char) : sizeBy (fun _ => 1) text = text.length := by
  induction text with
  | nil => rfl
  | cons char text induction => rw [sizeBy_cons, induction, List.length_cons, Nat.add_comm]

theorem length_le_sizeBy (positive : ∀ char, 1 ≤ measure char) (text : List Char) :
    text.length ≤ sizeBy measure text := by
  induction text with
  | nil => exact Nat.zero_le _
  | cons char text induction =>
      have first := positive char
      rw [List.length_cons, sizeBy_cons]
      omega

theorem sizeBy_eq_length (single : ∀ char ∈ text, measure char = 1) :
    sizeBy measure text = text.length := by
  induction text with
  | nil => rfl
  | cons char text induction =>
      rw [List.forall_mem_cons] at single
      rw [List.length_cons, sizeBy_cons, single.1, induction single.2, Nat.add_comm]

theorem byteSize_eq_byteLength (text : List Char) :
    byteSize text = byteLength (String.ofList text) := by
  unfold byteSize byteLength
  induction text with
  | nil => rfl
  | cons char text induction =>
      rw [sizeBy_cons, induction, ← List.singleton_append, String.ofList_append,
        String.utf8ByteSize_append, ← String.singleton_eq_ofList, String.utf8ByteSize_singleton]

theorem byteSize_toList (text : String) : byteSize text.toList = byteLength text := by
  rw [byteSize_eq_byteLength, String.ofList_toList]

theorem byteSize_cons (char : Char) (text : List Char) :
    byteSize (char :: text) = char.utf8Size + byteSize text :=
  sizeBy_cons char text

theorem byteSize_append (front back : List Char) :
    byteSize (front ++ back) = byteSize front + byteSize back :=
  sizeBy_append front back

theorem byteSize_le_of_suffix {left : List Char} (suffix : left <:+ text) :
    byteSize left ≤ byteSize text := by
  rcases suffix with ⟨front, rfl⟩
  rw [byteSize_append]
  exact Nat.le_add_left _ _

theorem byteSize_pos (nonempty : text ≠ []) : 0 < byteSize text := by
  have long := length_le_sizeBy Char.utf8Size_pos text
  have some := List.length_pos_iff.mpr nonempty
  exact Nat.lt_of_lt_of_le some long

/-! ## Offsets -/

/-- The two parts of a text at an offset in bytes. There are none at an offset behind the end, or
between the bytes of a character. -/
def splitBytes? : (offset : Nat) → List Char → Option (List Char × List Char)
  | 0, text => some ([], text)
  | _ + 1, [] => none
  | offset + 1, char :: text =>
      if char.utf8Size ≤ offset + 1 then
        (splitBytes? (offset + 1 - char.utf8Size) text).map fun (front, back) =>
          (char :: front, back)
      else
        none

def behind? (offset : Nat) (text : List Char) : Option (List Char) :=
  (splitBytes? offset text).map Prod.snd

structure Span where
  start : Nat
  stop : Nat
deriving DecidableEq, Repr

/-- What stands between two offsets of a text. There is nothing to give when one of them is none of
the text, or the second comes before the first. -/
def slice? (span : Span) (text : List Char) : Option (List Char) :=
  if span.start ≤ span.stop then
    (behind? span.start text).bind fun back =>
      (splitBytes? (span.stop - span.start) back).map Prod.fst
  else
    none

theorem splitBytes?_append (front back : List Char) :
    splitBytes? (byteSize front) (front ++ back) = some (front, back) := by
  induction front with
  | nil =>
      cases back <;> rfl
  | cons char front induction =>
      have positive := char.utf8Size_pos
      have whole := byteSize_cons char front
      rcases Nat.exists_eq_succ_of_ne_zero (n := byteSize (char :: front)) (by omega) with
        ⟨offset, size⟩
      rw [size, List.cons_append, splitBytes?, if_pos (by omega),
        show offset + 1 - char.utf8Size = byteSize front by omega, induction]
      rfl

theorem behind?_append (front back : List Char) :
    behind? (byteSize front) (front ++ back) = some back := by
  rw [behind?, splitBytes?_append]
  rfl

theorem slice?_append (front piece back : List Char) :
    slice? ⟨byteSize front, byteSize front + byteSize piece⟩ (front ++ (piece ++ back)) =
      some piece := by
  rw [slice?, if_pos (Nat.le_add_right _ _), behind?_append, Option.bind_some,
    Nat.add_sub_cancel_left, splitBytes?_append]
  rfl

end SchemaDdl.Text
