import Mathlib.Order.Bounds.Defs
import Mathlib.Order.MinMax
import SchemaDdl.Text.EditDistance

/-!
# Edit distance

The two rows hold what a recurrence over the last characters of two texts gives for all their
beginnings, and the recurrence gives the least number of edits that lead from one text to the other.
Edits can be undone and put one after another, so the distance is symmetric and satisfies the
triangle inequality.
-/

namespace SchemaDdl.Text

/-! ## Edits -/

/-- Whether a text becomes another one when one character is inserted, deleted or substituted. -/
inductive Edit : (source target : List Char) → Prop
  | insert (before after : List Char) (char : Char) :
      Edit (before ++ after) (before ++ char :: after)
  | delete (before after : List Char) (char : Char) :
      Edit (before ++ char :: after) (before ++ after)
  | substitute (before after : List Char) (char other : Char) :
      Edit (before ++ char :: after) (before ++ other :: after)

/-- Whether so many edits, one after another, lead from a text to another one. -/
inductive Edits : (count : Nat) → (source target : List Char) → Prop
  | none (text : List Char) : Edits 0 text text
  | next {count : Nat} {source middle target : List Char} (first : Edit source middle)
      (others : Edits count middle target) : Edits (count + 1) source target

variable {count more : Nat} {source middle target : List Char}

namespace Edit

theorem symm (edit : Edit source target) : Edit target source := by
  cases edit with
  | insert before after char => exact .delete before after char
  | delete before after char => exact .insert before after char
  | substitute before after char other => exact .substitute before after other char

theorem cons (edit : Edit source target) (first : Char) :
    Edit (first :: source) (first :: target) := by
  cases edit with
  | insert before after char => exact .insert (first :: before) after char
  | delete before after char => exact .delete (first :: before) after char
  | substitute before after char other => exact .substitute (first :: before) after char other

theorem reverse (edit : Edit source target) : Edit source.reverse target.reverse := by
  cases edit with
  | insert before after char => simpa using insert after.reverse before.reverse char
  | delete before after char => simpa using delete after.reverse before.reverse char
  | substitute before after char other =>
      simpa using substitute after.reverse before.reverse char other

end Edit

namespace Edits

theorem trans (first : Edits count source middle) (second : Edits more middle target) :
    Edits (count + more) source target := by
  induction first with
  | none => rwa [Nat.zero_add]
  | next edit _ induction =>
      rw [Nat.add_right_comm]
      exact .next edit (induction second)

theorem symm (edits : Edits count source target) : Edits count target source := by
  induction edits with
  | none text => exact .none text
  | next edit _ induction => exact induction.trans (.next edit.symm (.none _))

theorem cons (edits : Edits count source target) (first : Char) :
    Edits count (first :: source) (first :: target) := by
  induction edits with
  | none text => exact .none (first :: text)
  | next edit _ induction => exact .next (edit.cons first) induction

theorem reverse (edits : Edits count source target) :
    Edits count source.reverse target.reverse := by
  induction edits with
  | none text => exact .none text.reverse
  | next edit _ induction => exact .next edit.reverse induction

theorem reverse_iff : Edits count source.reverse target.reverse ↔ Edits count source target := by
  refine ⟨fun edits => ?_, reverse⟩
  simpa using edits.reverse

theorem zero_iff : Edits 0 source target ↔ source = target := by
  constructor
  · rintro ⟨⟩
    rfl
  · rintro rfl
    exact .none source

theorem fromEmpty (text : List Char) : Edits text.length [] text := by
  induction text with
  | nil => exact .none []
  | cons char text induction => exact .next (.insert [] [] char) (induction.cons char)

end Edits

/-! ## The recurrence -/

/-- The least number of edits, by the first characters of two texts: one of them is deleted or
inserted, or one takes the place of the other. -/
def distance : (source target : List Char) → Nat
  | [], target => target.length
  | source, [] => source.length
  | char :: source, other :: target =>
      min (min (distance source (other :: target) + 1) (distance (char :: source) target + 1))
        (distance source target + if char = other then 0 else 1)
termination_by source target => source.length + target.length

@[simp] theorem distance_nil_left (target : List Char) : distance [] target = target.length := by
  rw [distance]

@[simp] theorem distance_nil_right (source : List Char) : distance source [] = source.length := by
  cases source with
  | nil => rw [distance]
  | cons char source => rw [distance]; nofun

theorem distance_cons_cons (char other : Char) (source target : List Char) :
    distance (char :: source) (other :: target) =
      min (min (distance source (other :: target) + 1) (distance (char :: source) target + 1))
        (distance source target + if char = other then 0 else 1) := by
  rw [distance]

theorem edits_distance (source target : List Char) :
    Edits (distance source target) source target := by
  fun_induction distance source target with
  | case1 target => exact .fromEmpty target
  | case2 source => exact (Edits.fromEmpty source).symm
  | case3 char source other target deleted inserted substituted =>
      rcases min_choice
          (min (distance source (other :: target) + 1) (distance (char :: source) target + 1))
          (distance source target + if char = other then 0 else 1) with shorter | last
      · rw [shorter]
        rcases min_choice (distance source (other :: target) + 1)
            (distance (char :: source) target + 1) with first | second
        · rw [first]
          exact .next (.delete [] source char) deleted
        · rw [second]
          exact .next (.insert [] (char :: source) other) (inserted.cons other)
      · rw [last]
        split
        case isTrue same => exact same ▸ substituted.cons char
        case isFalse =>
          exact .next (.substitute [] source char other) (substituted.cons other)

theorem distance_cons_left_le (char : Char) (source target : List Char) :
    distance (char :: source) target ≤ distance source target + 1 := by
  cases target with
  | nil => simp
  | cons other target =>
      rw [distance_cons_cons]
      omega

theorem distance_cons_right_le (source : List Char) (other : Char) (target : List Char) :
    distance source (other :: target) ≤ distance source target + 1 := by
  cases source with
  | nil => simp
  | cons char source =>
      rw [distance_cons_cons]
      omega

theorem distance_le_cons_left (char : Char) (source target : List Char) :
    distance source target ≤ distance (char :: source) target + 1 := by
  induction target with
  | nil =>
      rw [distance_nil_right, distance_nil_right, List.length_cons]
      omega
  | cons other target induction =>
      have longer := distance_cons_right_le source other target
      rw [distance_cons_cons]
      omega

theorem distance_substitute_le (char other : Char) (source target : List Char) :
    distance (char :: source) target ≤ distance (other :: source) target + 1 := by
  induction target with
  | nil => simp
  | cons next target induction =>
      rw [distance_cons_cons, distance_cons_cons]
      split <;> split <;> omega

theorem distance_cons_le_cons (near : ∀ target, distance source target ≤ distance middle target + 1)
    (char : Char) (target : List Char) :
    distance (char :: source) target ≤ distance (char :: middle) target + 1 := by
  induction target with
  | nil => simpa using near []
  | cons other target induction =>
      have whole := near (other :: target)
      have rest := near target
      rw [distance_cons_cons, distance_cons_cons]
      omega

theorem Edit.distance_le (edit : Edit source middle) (target : List Char) :
    distance source target ≤ distance middle target + 1 := by
  -- An edit at the front is moved behind the characters before it one by one.
  have behind {left right : List Char}
      (near : ∀ target, distance left target ≤ distance right target + 1) (before : List Char) :
      ∀ target, distance (before ++ left) target ≤ distance (before ++ right) target + 1 := by
    induction before with
    | nil => exact near
    | cons char before induction => exact distance_cons_le_cons induction char
  cases edit with
  | insert before after char => exact behind (distance_le_cons_left char after) before target
  | delete before after char => exact behind (distance_cons_left_le char after) before target
  | substitute before after char other =>
      exact behind (distance_substitute_le char other after) before target

theorem Edits.distance_le (edits : Edits count source target) : distance source target ≤ count := by
  induction edits with
  | none text =>
      induction text with
      | nil => simp
      | cons char text induction =>
          rw [distance_cons_cons, if_pos rfl]
          omega
  | next edit _ induction => exact Nat.le_trans (edit.distance_le _) (Nat.succ_le_succ induction)

theorem isLeast_distance (source target : List Char) :
    IsLeast { count | Edits count source target } (distance source target) :=
  ⟨edits_distance source target, fun _ edits => edits.distance_le⟩

theorem distance_le_max (source target : List Char) :
    distance source target ≤ max source.length target.length := by
  fun_induction distance source target with
  | case1 target => exact Nat.le_max_right _ _
  | case2 source => exact Nat.le_max_left _ _
  | case3 char source other target =>
      simp only [List.length_cons] at *
      split <;> omega

/-! ## The rows -/

/-- The distance from a text to the first characters of another one, by the recurrence over the last
characters. -/
def cellAt (source : List Char) (target : Array Char) (column : Nat) : Nat :=
  distance source.reverse (target.toList.take column).reverse

theorem cellAt_zero (source : List Char) (target : Array Char) :
    cellAt source target 0 = source.length := by
  simp [cellAt]

theorem cellAt_nil {target : Array Char} {column : Nat} (bound : column ≤ target.size) :
    cellAt [] target column = column := by
  simp [cellAt, bound]

theorem cellAt_concat (source : List Char) (char : Char) {target : Array Char} {column : Nat}
    (bound : column < target.size) :
    cellAt (source ++ [char]) target (column + 1) =
      min
        (min (cellAt source target (column + 1) + 1) (cellAt (source ++ [char]) target column + 1))
        (cellAt source target column + if char = target[column] then 0 else 1) := by
  have taken : (target.toList.take (column + 1)).reverse =
      target[column] :: (target.toList.take column).reverse := by
    rw [List.take_succ_eq_append_getElem (by simpa using bound)]
    simp
  simp only [cellAt, taken, List.reverse_append, List.reverse_singleton, List.singleton_append,
    distance_cons_cons]

namespace Rows

variable {target : Array Char} {rows : Rows target.size} {char : Char}

/-- Whether the complete row holds the distances from a text to all beginnings of another one. -/
def Holds (rows : Rows target.size) (source : List Char) : Prop :=
  ∀ (column : Nat) (bound : column < target.size + 1),
    rows.previous[column] = cellAt source target column

/-- Whether the complete row belongs to a text, and the other one is written as far as a column for
the text with one more character. What stands behind this column is left from an older row. -/
structure Filled (rows : Rows target.size) (source : List Char) (char : Char) (count : Nat) :
    Prop where
  above : rows.Holds source
  left : ∀ (column : Nat) (bound : column < target.size + 1), column ≤ count →
    rows.current[column] = cellAt (source ++ [char]) target column

theorem Filled.put (filled : rows.Filled source char count) (bound : count < target.size) :
    (rows.put count bound (if char = target[count] then 0 else 1)).Filled source char
      (count + 1) := by
  refine ⟨filled.above, fun column inside reached => ?_⟩
  simp only [Rows.put, Vector.getElem_set]
  split
  case isTrue last =>
    subst last
    rw [cellAt_concat source char bound, filled.above, filled.above,
      filled.left count _ (Nat.le_refl count)]
  case isFalse other => exact filled.left column inside (by omega)

theorem Filled.fold (begun : rows.Filled source char 0) {count : Nat}
    (bound : count ≤ target.size) :
    (count.fold (fun column inside rows => rows.put column (Nat.lt_of_lt_of_le inside bound)
      (if char = target[column] then 0 else 1)) rows).Filled source char count := by
  induction count with
  | zero => exact begun
  | succ count induction =>
      rw [Nat.fold_succ]
      exact (induction (Nat.le_of_lt bound)).put bound

theorem Holds.fill_swap (holds : rows.Holds source) (char : Char) :
    (rows.fill char (source.length + 1)).swap.Holds (source ++ [char]) := by
  have begun : Filled { rows with current := rows.current.set 0 (source.length + 1) } source char
      0 := by
    refine ⟨holds, fun column inside reached => ?_⟩
    obtain rfl : column = 0 := Nat.le_zero.mp reached
    simp [cellAt_zero]
  have written := begun.fold (Nat.le_refl target.size)
  exact fun column inside => written.left column inside (Nat.le_of_lt_succ inside)

theorem holds_start (target : Array Char) : (start target.size).Holds [] := by
  intro column inside
  rw [cellAt_nil (Nat.le_of_lt_succ inside)]
  simp [start]

theorem Holds.foldl (holds : rows.Holds source) (others : List Char) :
    Holds ((others.zipIdx (source.length + 1)).foldl
      (fun rows (char, number) => (rows.fill char number).swap) rows) (source ++ others) := by
  -- The number of a character is the length of what comes before it, and one more.
  induction others generalizing source rows with
  | nil => simpa using holds
  | cons char others induction =>
      have next := induction (holds.fill_swap char)
      rw [List.length_append, List.length_singleton, List.append_assoc] at next
      exact next

end Rows

theorem editDistance_eq_distance (source target : List Char) :
    editDistance source target = distance source.reverse target.reverse := by
  have holds := (Rows.holds_start target.toArray).foldl source
  have whole : cellAt source target.toArray target.toArray.size =
      distance source.reverse target.reverse := by
    simp [cellAt]
  exact (holds target.toArray.size (Nat.lt_succ_self _)).trans whole

/-! ## What the distance says -/

theorem isLeast_editDistance (source target : List Char) :
    IsLeast { count | Edits count source target } (editDistance source target) := by
  have least := isLeast_distance source.reverse target.reverse
  simpa only [Edits.reverse_iff, ← editDistance_eq_distance] using least

theorem editDistance_comm (source target : List Char) :
    editDistance source target = editDistance target source := by
  have least := isLeast_editDistance source target
  have least' := isLeast_editDistance target source
  exact Nat.le_antisymm (least.2 least'.1.symm) (least'.2 least.1.symm)

theorem editDistance_triangle (source middle target : List Char) :
    editDistance source target ≤ editDistance source middle + editDistance middle target :=
  (isLeast_editDistance source target).2
    ((isLeast_editDistance source middle).1.trans (isLeast_editDistance middle target).1)

theorem editDistance_eq_zero_iff : editDistance source target = 0 ↔ source = target := by
  have least := isLeast_editDistance source target
  constructor
  · intro zero
    rw [zero] at least
    exact Edits.zero_iff.mp least.1
  · intro same
    exact Nat.le_zero.mp (least.2 (Edits.zero_iff.mpr same))

theorem editDistance_le_max (source target : List Char) :
    editDistance source target ≤ max source.length target.length := by
  simpa [editDistance_eq_distance] using distance_le_max source.reverse target.reverse

/-- Whether a number that belongs to any two texts follows the recurrence over their last
characters. -/
structure FollowsRecurrence (number : List Char → List Char → Nat) : Prop where
  nil_left : ∀ target, number [] target = target.length
  nil_right : ∀ source, number source [] = source.length
  concat : ∀ source char target other, number (source ++ [char]) (target ++ [other]) =
    min (min (number source (target ++ [other]) + 1) (number (source ++ [char]) target + 1))
      (number source target + if char = other then 0 else 1)

theorem followsRecurrence_editDistance : FollowsRecurrence editDistance where
  nil_left target := by simp [editDistance_eq_distance]
  nil_right source := by simp [editDistance_eq_distance]
  concat source char target other := by
    simp only [editDistance_eq_distance, List.reverse_append, List.reverse_singleton,
      List.singleton_append, distance_cons_cons]

end SchemaDdl.Text
