import SchemaDdl.Number.Binary64
import SchemaDdl.Text.EditDistance

/-!
# Possible renames

A removed and an added name that resemble each other may be one thing under a new name. Candidates
are paired one to one, those most alike first.
-/

namespace SchemaDdl

/-- How alike two names are, from zero for names without anything in common to one for equal names:
one less the share of characters that have to be edited. Quotient and difference are both
rounded. -/
def similarity (left right : String) : Binary64 :=
  let longest := max left.length right.length
  if longest = 0 then
    .ofInt 1
  else
    let edits := Text.editDistance left.toList right.toList
    (Binary64.ofRatio false ⟨edits, longest⟩).complement

def renameThreshold : Binary64 :=
  .ofRatio false ⟨2, 5⟩

/-- An old and a new name, and how alike they are. -/
structure Rename where
  old : String
  new : String
  similarity : Binary64
deriving DecidableEq, Repr

namespace Rename

def between? (oldName newName old new : String) : Option Rename :=
  let similarity := SchemaDdl.similarity oldName newName
  if renameThreshold.totalLE similarity then some ⟨old, new, similarity⟩ else none

def conflicts (left right : Rename) : Bool :=
  left.old == right.old || left.new == right.new

/-- A candidate is taken unless one that was taken before claims one of its names. -/
def accept (taken : List Rename) (candidate : Rename) : List Rename :=
  if taken.any candidate.conflicts then taken else taken ++ [candidate]

/-- Candidates with no name in two of them, each taken unless one that is more alike, or earlier and
as much alike, has one of its names. -/
def bestPairs (candidates : List Rename) : List Rename :=
  let ranked := candidates.mergeSort fun left right =>
    right.similarity.totalLE left.similarity
  ranked.foldl accept []

end Rename

end SchemaDdl
