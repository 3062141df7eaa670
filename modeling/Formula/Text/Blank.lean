import Formula.Text.Ranges

/-!
Blanks: the characters that separate words, those of category Zs and those whose
bidirectional class is a white space or a separator.
-/

set_option autoImplicit false

namespace Formula.Text

def blanks : Ranges :=
  [(0x9, 0xD), (0x1C, 0x20), (0x85, 0x85), (0xA0, 0xA0), (0x1680, 0x1680), (0x2000, 0x200A),
   (0x2028, 0x2029), (0x202F, 0x202F), (0x205F, 0x205F), (0x3000, 0x3000)]

/-- A character that may stand between tokens. -/
def isBlank (c : Char) : Bool := blanks.contains c

end Formula.Text
