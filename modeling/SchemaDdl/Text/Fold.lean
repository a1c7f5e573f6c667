/-!
# Case folding

Letters compared without regard to case, by simple case folding onto the small ASCII letters.
-/

namespace SchemaDdl.Text

/-- A letter folded to a small ASCII letter, when simple case folding gives one; two letters beyond
ASCII fold to `s` and `k`. -/
def fold (char : Char) : Char :=
  if char = '\u017f' then 's'
  else if char = '\u212a' then 'k'
  else char.toLower

def foldAll (text : List Char) : List Char :=
  text.map fold

end SchemaDdl.Text
