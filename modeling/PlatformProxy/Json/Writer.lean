import PlatformProxy.Json.Basic
import PlatformProxy.Floating.Text
import PlatformProxy.Text.Quoted
import PlatformProxy.Text.Utf8

/-!
# Writing JSON

Values are written without any blanks. Only what the grammar demands is escaped: quotes,
backslashes and control characters; everything else stands for itself.

## Main definitions

* `Json.stringChars` — a string literal
* `Json.Number.chars` — a number
* `Json.chars`, `Json.text`, `Json.bytes` — a value
-/

namespace PlatformProxy

namespace Json

/-! ### Literals -/

/-- A character within a string literal. -/
def escapedChar (c : Char) : List Char :=
  if c = '"' ∨ c = '\\' then ['\\', c]
  else if c = '\n' then ['\\', 'n']
  else if c = '\r' then ['\\', 'r']
  else if c = '\t' then ['\\', 't']
  else if c = '\x08' then ['\\', 'b']
  else if c = '\x0c' then ['\\', 'f']
  else if c < ' ' then
    ['\\', 'u', '0', '0', Text.hexDigit (c.toNat / 16), Text.hexDigit (c.toNat % 16)]
  else [c]

/-- A string literal. -/
def stringChars (s : String) : List Char := '"' :: s.toList.flatMap escapedChar ++ ['"']

/-- The layout of doubles: with a point, or with an exponent if that is far off. -/
def doubleLayout : Floating.Layout := ⟨some (-5, 15), true, "null", "null"⟩

/-- The layout of single-precision numbers. -/
def singleLayout : Floating.Layout := ⟨some (-6, 12), true, "null", "null"⟩

namespace Number

def chars : Number → List Char
  | natural n => Text.decimal n.toNat
  | negative n => '-' :: Text.decimal (n.val + 1)
  | real x _ => (Floating.render doubleLayout x).toList

end Number

/-! ### Values -/

/-- Items with commas between them. -/
def commaSeparated (items : List (List Char)) : List Char := [','].intercalate items

mutual

/-- The text of a value. -/
def chars : Json → List Char
  | null => ['n', 'u', 'l', 'l']
  | bool true => ['t', 'r', 'u', 'e']
  | bool false => ['f', 'a', 'l', 's', 'e']
  | number n => n.chars
  | string s => stringChars s
  | array items => '[' :: commaSeparated (itemChars items) ++ [']']
  | object members => '\x7b' :: commaSeparated (memberChars members) ++ ['\x7d']

def itemChars : List Json → List (List Char)
  | [] => []
  | v :: rest => chars v :: itemChars rest

def memberChars : List (String × Json) → List (List Char)
  | [] => []
  | (name, v) :: rest => (stringChars name ++ ':' :: chars v) :: memberChars rest

end

def text (v : Json) : String := String.ofList v.chars

def bytes (v : Json) : Bytes := Utf8.encode v.chars

end Json

end PlatformProxy
