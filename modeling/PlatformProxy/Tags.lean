/-!
# Tag lists

The platform reports the tags of a Workshop item as one text with commas between them. Two
readings of it are in use: the catalog's filter compares the raw pieces, while the tags shown to
callers leave out empty ones.

## Main definitions

* `Tags.pieces` — what stands between the commas, empty pieces included
* `Tags.split` — the tags: the pieces that are not empty
-/

namespace PlatformProxy

namespace Tags

/-- Separates the tags of an item. -/
def delimiter : Char := ','

/-- What stands between the delimiters. -/
def pieces (raw : String) : List String := (raw.toList.splitOn delimiter).map String.ofList

/-- The tags of a raw tag text. -/
def split (raw : String) : List String := (pieces raw).filter fun tag => !tag.isEmpty

end Tags

end PlatformProxy
