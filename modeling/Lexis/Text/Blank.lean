import Lexis.Text.Ranges

/-!
# Blank characters

The characters that separate lexemes: those with a bidirectional class WS, B or S or of category Zs
in Unicode 14.0. The zero width space and the byte order mark are not blank.
-/

namespace Lexis.Text

/-- The code points of all blank characters. -/
def blanks : Ranges :=
  [(0x9, 0xD), (0x1C, 0x20), (0x85, 0x85), (0xA0, 0xA0), (0x1680, 0x1680), (0x2000, 0x200A),
   (0x2028, 0x2029), (0x202F, 0x202F), (0x205F, 0x205F), (0x3000, 0x3000)]

/-- Whether a character is blank. -/
def isBlank (c : Char) : Bool := blanks.holds c.toNat

end Lexis.Text
