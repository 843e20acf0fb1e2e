import PlatformProxy.Yaml.Core

/-!
# Writing YAML

Mappings and sequences are written as blocks, an item under its key without further indentation.
A text is written plain wherever it then reads as the same text; a text with line ends becomes a
literal block, and what neither form can hold goes between quotes.

## Main definitions

* `Yaml.Traits` — what about a text decides how it can be written
* `Yaml.Form`, `Yaml.formOf` — the ways of writing a text
* `Yaml.Tree` — what is written
* `Yaml.Tree.text` — the text of a document

## Implementation notes

Lines are never broken, however long they get. Where a text holds a line separator, the writer
indents what follows it, as after any line end.
-/

namespace PlatformProxy

namespace Yaml

/-! ### Characters -/

/-- Characters that end a line of a scalar. -/
def endsLine (c : Char) : Bool :=
  c = '\n' || c = '\r' || c = '\u0085' || c = '\u2028' || c = '\u2029'

/-- Characters that can be written as they are. -/
def isPrintable (c : Char) : Bool :=
  c = '\n' || (' ' ≤ c && c ≤ '~') || ('\u00a0' ≤ c && c ≠ '\ufeff' && c ≠ '\ufffe' && c ≠ '\uffff')

/-- A blank, a line end or the end of a text. -/
def endsWord : Option Char → Bool
  | none => true
  | some c => c = ' ' || c = '\t' || c = '\x00' || endsLine c

/-! ### How a text can be written -/

/-- What about a text decides how it can be written. -/
structure Traits where
  /-- It reads as something else than text outside of quotes. -/
  hasIndicator : Bool
  hasLineEnd : Bool
  hasUnprintable : Bool
  /-- It begins or ends with a blank or a line end. -/
  hasLooseEnd : Bool
  endsInBlank : Bool
  /-- A line of it begins with a blank, the first one apart. -/
  hasIndentedLine : Bool
  /-- A line of it ends with a blank, the last one apart. -/
  hasTrailingBlank : Bool

/-- Indicators that begin something else wherever they come first. -/
def leadingIndicators : List Char :=
  ['#', ',', '[', ']', '\x7b', '\x7d', '&', '*', '!', '|', '>', '\'', '"', '%', '@', '\x60']

/-- Whether an indicator stands at the beginning of a text. -/
def beginsWithIndicator (s : List Char) : Bool :=
  match s with
  | [] => false
  | c :: rest =>
    leadingIndicators.contains c ||
      ((c = '?' || c = ':' || c = '-') && endsWord rest.head?) ||
      ['-', '-', '-'].isPrefixOf s || ['.', '.', '.'].isPrefixOf s

/-- Whether an indicator stands further on in a text, after a character `before`: a colon at the
end of a word or a number sign at the beginning of one. -/
def holdsIndicator (before : Char) : List Char → Bool
  | [] => false
  | c :: rest =>
    (c = ':' && endsWord rest.head?) || (c = '#' && endsWord (some before)) ||
      holdsIndicator c rest

/-- Whether two neighbours in a text are of two kinds. -/
def hasNeighbours (p q : Char → Bool) : List Char → Bool
  | a :: b :: rest => (p a && q b) || hasNeighbours p q (b :: rest)
  | _ => false

def isSpace (c : Char) : Bool := c = ' '

namespace Traits

def of (s : List Char) : Traits where
  hasIndicator := beginsWithIndicator s ||
    match s with
    | [] => false
    | c :: rest => holdsIndicator c rest
  hasLineEnd := s.any endsLine
  hasUnprintable := s.any fun c => !isPrintable c
  hasLooseEnd := s.head?.any (fun c => isSpace c || endsLine c) ||
    s.getLast?.any fun c => isSpace c || endsLine c
  endsInBlank := s.getLast?.any isSpace
  hasIndentedLine := hasNeighbours endsLine isSpace s
  hasTrailingBlank := hasNeighbours isSpace endsLine s

/-- Whether some form but the one with escapes can hold the text. -/
def isTame (t : Traits) : Bool := !t.hasUnprintable && !t.hasTrailingBlank

def allowsPlain (t : Traits) : Bool :=
  t.isTame && !t.hasIndicator && !t.hasLineEnd && !t.hasLooseEnd && !t.hasIndentedLine

def allowsSingle (t : Traits) : Bool := t.isTame && !t.hasIndentedLine

def allowsBlock (t : Traits) : Bool := t.isTame && !t.endsInBlank

end Traits

/-- The ways of writing a text. -/
inductive Form
  | plain
  | single
  | double
  | literal
  deriving DecidableEq, Repr

/-- Whether a plain scalar would not read as the text it is. -/
def readsOtherwise (s : String) : Bool :=
  Core.ofPlain s ≠ .text s || Core.hasLeadingZeros s.toList

def formOf (s : String) : Form :=
  let t := Traits.of s.toList
  if s.toList.contains '\n' then if t.allowsBlock then .literal else .double
  else if !readsOtherwise s && t.allowsPlain then .plain
  else if t.allowsSingle then .single
  else .double

/-! ### Texts -/

def upperHexDigit (n : Nat) : Char := Char.ofNat (if n < 10 then 0x30 + n else 0x37 + n)

/-- The lowest `width` hexadecimal digits of a number. -/
def hexDigits (n : Nat) : (width : Nat) → List Char
  | 0 => []
  | width + 1 => hexDigits (n / 16) width ++ [upperHexDigit (n % 16)]

/-- The letter of an escape that has one. -/
def escapeLetter? (c : Char) : Option Char :=
  match c with
  | '\x00' => some '0'
  | '\x07' => some 'a'
  | '\x08' => some 'b'
  | '\t' => some 't'
  | '\n' => some 'n'
  | '\x0b' => some 'v'
  | '\x0c' => some 'f'
  | '\r' => some 'r'
  | '\x1b' => some 'e'
  | '"' => some '"'
  | '\\' => some '\\'
  | '\u0085' => some 'N'
  | '\u2028' => some 'L'
  | '\u2029' => some 'P'
  | _ => none

/-- A character between double quotes. -/
def doubleQuotedChar (c : Char) : List Char :=
  if isPrintable c && !endsLine c && c ≠ '"' && c ≠ '\\' then [c]
  else
    match escapeLetter? c with
    | some letter => ['\\', letter]
    | none =>
      if c.toNat ≤ 0xFF then '\\' :: 'x' :: hexDigits c.toNat 2
      else if c.toNat ≤ 0xFFFF then '\\' :: 'u' :: hexDigits c.toNat 4
      else '\\' :: 'U' :: hexDigits c.toNat 8

def blanks (n : Nat) : List Char := List.replicate n ' '

/-- The contents of single quotes. A line end other than a line feed is kept, and the next line is
indented. -/
def singleQuotedChars (indent : Nat) : (afterBreak : Bool) → List Char → List Char
  | afterBreak, [] => if afterBreak then blanks indent else []
  | afterBreak, c :: rest =>
    if endsLine c then c :: singleQuotedChars indent true rest
    else if c = ' ' then c :: singleQuotedChars indent afterBreak rest
    else
      (if afterBreak then blanks indent else []) ++
        (if c = '\'' then ['\'', '\''] else [c]) ++ singleQuotedChars indent false rest

/-- The lines of a literal block. -/
def literalChars (indent : Nat) : (afterBreak : Bool) → List Char → List Char
  | _, [] => []
  | afterBreak, c :: rest =>
    if endsLine c then c :: literalChars indent true rest
    else (if afterBreak then blanks indent else []) ++ c :: literalChars indent false rest

/-- What is said about the line ends after a literal block: without a sign there is one. -/
def chompingSign (s : List Char) : List Char :=
  match s.reverse with
  | [] => ['-']
  | c :: before =>
    if !endsLine c then ['-']
    else
      match before with
      | [] => ['+']
      | d :: _ => if endsLine d then ['+'] else []

/-- The sign for the indentation, needed where the first line begins with a blank. -/
def indentSign (s : List Char) : List Char :=
  match s with
  | [] => []
  | c :: _ => if isSpace c || endsLine c then ['2'] else []

/-- A text as a value in a block whose columns begin at `indent`, with the line end after it. -/
def textChars (indent : Nat) (s : String) : List Char :=
  let cs := s.toList
  match formOf s with
  | .plain => cs ++ ['\n']
  | .single => '\'' :: singleQuotedChars (indent + 2) false cs ++ ['\'', '\n']
  | .double => '"' :: cs.flatMap doubleQuotedChar ++ ['"', '\n']
  | .literal =>
    let body := literalChars (indent + 2) true cs
    '|' :: indentSign cs ++ chompingSign cs ++ '\n' :: body ++
      (if cs.getLast?.any endsLine then [] else ['\n'])

/-! ### Documents -/

/-- What is written: scalars that are no texts are given by the way they are spelled. -/
inductive Tree
  | word (s : String)
  | text (s : String)
  | sequence (items : List String)
  | mapping (pairs : List (String × Tree))
  deriving Repr

mutual

/-- A value after its key and a colon, up to the end of its last line. -/
def valueChars (indent : Nat) : Tree → List Char
  | .word s => ' ' :: s.toList ++ ['\n']
  | .text s => ' ' :: textChars indent s
  | .sequence [] => " []\n".toList
  | .sequence items =>
    '\n' :: items.flatMap fun s => blanks indent ++ '-' :: ' ' :: textChars indent s
  | .mapping pairs => '\n' :: pairsChars (indent + 2) pairs

/-- The pairs of a mapping whose columns begin at `indent`. -/
def pairsChars (indent : Nat) : List (String × Tree) → List Char
  | [] => []
  | p :: rest => pairChars indent p ++ pairsChars indent rest

def pairChars (indent : Nat) : String × Tree → List Char
  | (key, value) => blanks indent ++ key.toList ++ ':' :: valueChars indent value

end

namespace Tree

/-- The text of a document that is a mapping. -/
def documentText (pairs : List (String × Tree)) : String := String.ofList (pairsChars 0 pairs)

end Tree

end Yaml

end PlatformProxy
