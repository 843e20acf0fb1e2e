/-!
# Sets of characters

A character property of the Unicode standard is a finite union of intervals of code points. The
tables of this library are written that way and looked up here.

## Main definitions

* `CharSet` — a union of closed intervals of code points
* `CharSet.contains` — membership
-/

namespace PlatformProxy

namespace Text

/-- A set of characters, as closed intervals of code points. -/
structure CharSet where
  ranges : List (Nat × Nat)

namespace CharSet

/-- The union of the closed intervals given by their ends. -/
def ofRanges (ranges : List (Nat × Nat)) : CharSet := ⟨ranges⟩

def contains (s : CharSet) (c : Char) : Bool :=
  s.ranges.any fun r => r.1 ≤ c.toNat && c.toNat ≤ r.2

end CharSet

end Text

end PlatformProxy
