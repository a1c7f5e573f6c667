/-!
# Blank characters

The White_Space property of Unicode, which decides what trimming removes and what separates words.
-/

namespace SchemaDdl.Text

def isBlank (char : Char) : Bool :=
  let code := char.toNat
  (9 ≤ code && code ≤ 13) || code == 0x20 || code == 0x85 || code == 0xA0 || code == 0x1680
    || (0x2000 ≤ code && code ≤ 0x200A) || code == 0x2028 || code == 0x2029 || code == 0x202F
    || code == 0x205F || code == 0x3000

example : isBlank '\u0085' = true := by decide
example : isBlank '\u200b' = false := by decide

end SchemaDdl.Text
