/-!
# Edit distance

How many single characters have to be inserted, deleted or substituted to turn one text into
another. The distances to all beginnings of the second text make up a row, and each character of the
first text turns one row into the next. Two rows are kept, which change places after each character.
-/

namespace SchemaDdl.Text

/-- Two rows with a cell for every beginning of a text: one that is complete, and one that is
written over an older row. -/
structure Rows (width : Nat) where
  previous : Vector Nat (width + 1)
  current : Vector Nat (width + 1)
deriving DecidableEq, Repr

namespace Rows

def start (width : Nat) : Rows width :=
  ⟨.range (width + 1), .replicate (width + 1) 0⟩

/-- Writes the cell behind a column from the three cells around it. A substitution has a cost unless
the characters are the same. -/
def put {width : Nat} (rows : Rows width) (column : Nat) (bound : column < width) (cost : Nat) :
    Rows width :=
  let cell := min (min (rows.previous[column + 1] + 1) (rows.current[column] + 1))
    (rows.previous[column] + cost)
  { rows with current := rows.current.set (column + 1) cell }

/-- Writes the row with a number, from left to right, for the character of the first text that has
this number. -/
def fill {target : Array Char} (rows : Rows target.size) (char : Char) (number : Nat) :
    Rows target.size :=
  target.size.fold
    (fun column bound rows => rows.put column bound (if char = target[column] then 0 else 1))
    { rows with current := rows.current.set 0 number }

/-- The row that was written is complete, and the other one may be written over. -/
def swap {width : Nat} (rows : Rows width) : Rows width :=
  ⟨rows.current, rows.previous⟩

end Rows

/-- The number of insertions, deletions and substitutions that lead from one text to another. -/
def editDistance (source target : List Char) : Nat :=
  let columns := target.toArray
  let rows : Rows columns.size := (source.zipIdx 1).foldl
    (fun rows (char, number) => (rows.fill char number).swap) (.start columns.size)
  rows.previous[columns.size]

example : editDistance "kitten".toList "sitting".toList = 3 := by decide +kernel
example : editDistance "abc".toList [] = 3 := by decide +kernel
example : editDistance [] "abc".toList = 3 := by decide +kernel

end SchemaDdl.Text
