import PlatformProxy.Text.CharSet

/-!
# White space

A text is trimmed of the characters with the Unicode property `White_Space`, which is wider than
ASCII: a no-break space and an ideographic space count.

## Main definitions

* `isBlank` — the property `White_Space`
* `trim` — a text without the blanks at its two ends
-/

namespace PlatformProxy

namespace Text

/-- The property `White_Space`. -/
def whiteSpace : CharSet := .ofRanges
  [(0x9, 0xd), (0x20, 0x20), (0x85, 0x85), (0xa0, 0xa0), (0x1680, 0x1680), (0x2000, 0x200a),
   (0x2028, 0x2029), (0x202f, 0x202f), (0x205f, 0x205f), (0x3000, 0x3000)]

def isBlank (c : Char) : Bool := whiteSpace.contains c

/-- Drop the blanks at both ends. -/
def trim (s : List Char) : List Char :=
  ((s.dropWhile isBlank).reverse.dropWhile isBlank).reverse

end Text

end PlatformProxy
