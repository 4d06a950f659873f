/-!
# Blank text

The white space of Unicode.
-/

namespace LanguageClient

/-- Whether the character is white space. -/
def isWhiteSpace (c : Char) : Bool :=
  let n := c.toNat
  (9 ≤ n && n ≤ 13) || n = 0x20 || n = 0x85 || n = 0xA0 || n = 0x1680 || (0x2000 ≤ n && n ≤ 0x200A) ||
    n = 0x2028 || n = 0x2029 || n = 0x202F || n = 0x205F || n = 0x3000

def isBlankText (text : String) : Bool := text.toList.all isWhiteSpace

end LanguageClient
