import SchemaDdl.Proofs.Text.Splitting
import SchemaDdl.Schema.Name

/-!
# Names and their texts

A name that was read from a text is written as this text again, so that such names are told apart by
their texts.
-/

namespace SchemaDdl

namespace QualifiedName

theorem text_ofText (text : String) : (ofText text).text = text := by
  unfold ofText
  split
  · rename_i schema name found
    split
    · rfl
    · apply String.toList_injective
      simp [QualifiedName.text, Text.eq_of_splitFirst found]
  · rfl

/-- Whether a name is one that is read from some text. -/
def FromText (name : QualifiedName) : Prop :=
  ∃ text, name = ofText text

theorem FromText.ofText_text {name : QualifiedName} (read : name.FromText) :
    ofText name.text = name := by
  rcases read with ⟨text, rfl⟩
  rw [text_ofText]

theorem FromText.text_inj {left right : QualifiedName} (leftRead : left.FromText)
    (rightRead : right.FromText) : left.text = right.text ↔ left = right := by
  constructor
  · intro same
    rw [← leftRead.ofText_text, same, rightRead.ofText_text]
  · exact congrArg text

end QualifiedName

end SchemaDdl
