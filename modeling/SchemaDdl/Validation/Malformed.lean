import SchemaDdl.Defect
import SchemaDdl.Schema.Model
import SchemaDdl.Text.Phrase

/-!
# Malformed functions

A function in plain SQL has no block of statements between `BEGIN` and `END`, other than an atomic
one. A schema with such a function cannot be judged at all.
-/

namespace SchemaDdl

/-- Whether a text has a block of statements that is not atomic: the first `BEGIN` is followed by an
`END`, and not by `ATOMIC`. -/
def hasStatementBlock (text : String) : Bool :=
  match Text.afterFirst? Text.wordEnds [["begin"]] none text.toList with
  | none => false
  | some rest =>
      let isAtomic := "atomic".toList.isPrefixOf (Text.lower (Text.trimStart rest))
      !isAtomic && (Text.afterFirst? Text.wordEnds [["end"]] none rest).isSome

def StoredFunction.isMalformed (function : StoredFunction) : Bool :=
  match function.body with
  | .raw text => Text.sameLetters function.language "sql" && hasStatementBlock text
  | .statements _ => false

/-- Fails at the first malformed function. -/
def Schema.rejectMalformed (schema : Schema) : Attempt Unit :=
  match schema.functions.find? StoredFunction.isMalformed with
  | some function => .error (.malformedFunction function.name)
  | none => .ok ()

end SchemaDdl
