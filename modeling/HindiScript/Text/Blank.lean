import HindiScript.Text.Ranges

/-!
# Blank characters

The characters that separate tokens: Unicode white space and the four information separators
U+001C to U+001F.
-/

namespace HindiScript.Text

/-- The blank code points, in ascending runs. -/
def blankRanges : Ranges where
  pairs :=
    [(0x9, 0xD), (0x1C, 0x20), (0x85, 0x85), (0xA0, 0xA0), (0x1680, 0x1680), (0x2000, 0x200A),
     (0x2028, 0x2029), (0x202F, 0x202F), (0x205F, 0x205F), (0x3000, 0x3000)]

def isBlank (c : Char) : Bool := blankRanges.holds c

end HindiScript.Text
