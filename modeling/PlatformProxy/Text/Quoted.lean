import PlatformProxy.Text.VisibleTable

/-!
# Quoted texts in messages

A message that complains about a text shows it between double quotes. Characters that would not
show, or that attach to the character before them, are written as escapes with their code point.

## Main definitions

* `quotedChar` — how a character stands in a quoted text
* `quoted` — a text between quotes
-/

namespace PlatformProxy

namespace Text

/-- A digit of base sixteen, in lower case. -/
def hexDigit (n : Nat) : Char := if n < 10 then Char.ofNat (0x30 + n) else Char.ofNat (0x57 + n)

/-- How a character stands between quotes. -/
def quotedChar (c : Char) : List Char :=
  if c = '\x00' then ['\\', '0']
  else if c = '\t' then ['\\', 't']
  else if c = '\r' then ['\\', 'r']
  else if c = '\n' then ['\\', 'n']
  else if c = '"' ∨ c = '\\' then ['\\', c]
  else if ' ' ≤ c ∧ c ≤ '~' then [c]
  else if graphemeExtend.contains c || unprintable.contains c then
    ['\\', 'u', '\x7b'] ++ Nat.toDigits 16 c.toNat ++ ['\x7d']
  else [c]

/-- A text between quotes. -/
def quoted (s : String) : String :=
  String.ofList ('"' :: s.toList.flatMap quotedChar ++ ['"'])

end Text

end PlatformProxy
