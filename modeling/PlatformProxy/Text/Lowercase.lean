import PlatformProxy.Text.CaseTable

/-!
# Lower-casing a text

Searches compare lower-cased texts. Lower-casing is the full Unicode mapping of a whole text, not
of its characters one by one: a capital sigma becomes `ς` at the end of a word and `σ` elsewhere,
and the dotted capital `İ` becomes two characters.

## Main definitions

* `lowerChar` — the lower-case form of one character other than a capital sigma
* `endsWord` — whether a capital sigma between two texts stands at the end of a word
* `lower` — the lower-case form of a text
-/

namespace PlatformProxy

namespace Text

/-- The offset to the lower-case form, for characters with a one-to-one mapping. -/
def lowercaseOffset (c : Char) : Int :=
  match lowercaseRuns.find? fun r =>
      r.first ≤ c.toNat && c.toNat ≤ r.last && (c.toNat - r.first) % r.step == 0 with
  | some r => r.offset
  | none => 0

/-- The lower-case form of one character. -/
def lowerChar (c : Char) : List Char :=
  if c.toNat < 0x80 then [c.toLower]
  else if c = 'İ' then ['i', '\u0307']
  else [Char.ofNat (c.toNat + lowercaseOffset c).toNat]

/-- Past the characters that do not count, the next one has case. -/
def reachesCased (s : List Char) : Bool :=
  match s.dropWhile caseIgnorable.contains with
  | c :: _ => casedLetters.contains c
  | [] => false

/-- Between `before`, given backwards, and `after` a word ends. -/
def endsWord (before after : List Char) : Bool := reachesCased before && !reachesCased after

/-- The lower-case form of a text that continues `before`, given backwards, in pieces: the last
piece comes first. -/
def lowerPieces (pieces : List (List Char)) (before : List Char) : List Char → List (List Char)
  | [] => pieces
  | c :: after =>
    let piece := if c = 'Σ' then [if endsWord before after then 'ς' else 'σ'] else lowerChar c
    lowerPieces (piece :: pieces) (c :: before) after

/-- The lower-case form of a text. -/
def lower (s : List Char) : List Char := (lowerPieces [] [] s).reverse.flatten

end Text

end PlatformProxy
