import PlatformProxy.Json.Basic
import PlatformProxy.Json.Fault

/-!
# The pieces of a JSON text

Words, numbers and strings, and what may stand between the items of arrays and objects. Each
reader takes bytes off the front and returns what is left. The order in which it looks at bytes
decides which of several faults is reported and where.

## Main definitions

* `Json.skipBlanks` — what may stand between any two pieces
* `Json.readWord` — the rest of `null`, `true` or `false`
* `Json.readNumber` — a number
* `Json.readString`, `Json.skipString` — a string, for its value or only for its end
* `Json.nextItem`, `Json.endArray`, `Json.nextKey`, `Json.readColon`, `Json.endObject` —
  punctuation

## Implementation notes

A number that is not an integer of 64 bits is not rounded correctly: its first digits, as many as
fit into 64 bits, are rounded to a double, which is then multiplied or divided by a power of ten.
Both steps round. The results are part of the format's observable behaviour.
-/

namespace PlatformProxy

namespace Json

/-! ### Bytes -/

/-- The byte of an ASCII character. -/
def byte (c : Char) : UInt8 := UInt8.ofNat c.toNat

def isBlankByte (b : UInt8) : Bool := b = 0x20 || b = 0x0A || b = 0x09 || b = 0x0D

def skipBlanks : Bytes → Bytes
  | [] => []
  | b :: rest => if isBlankByte b then skipBlanks rest else b :: rest

/-- The value of a decimal digit. -/
def digit? (b : UInt8) : Option Nat :=
  if 0x30 ≤ b ∧ b ≤ 0x39 then some (b.toNat - 0x30) else none

def isDigit (b : UInt8) : Bool := (digit? b).isSome

/-- Whether a digit comes next. -/
def startsWithDigit : Bytes → Bool
  | [] => false
  | b :: _ => isDigit b

def skipDigits : Bytes → Bytes
  | [] => []
  | b :: rest => if isDigit b then skipDigits rest else b :: rest

def hexDigit? (b : UInt8) : Option Nat :=
  if 0x30 ≤ b ∧ b ≤ 0x39 then some (b.toNat - 0x30)
  else if 0x41 ≤ b ∧ b ≤ 0x46 then some (b.toNat - 0x37)
  else if 0x61 ≤ b ∧ b ≤ 0x66 then some (b.toNat - 0x57)
  else none

/-- Take the bytes of a word off the front. -/
def readWord : (word : List Char) → Bytes → Except Fault Bytes
  | [], input => .ok input
  | _ :: _, [] => .error (.behind .endInValue [])
  | c :: word, b :: rest =>
    if b = byte c then readWord word rest else .error (.behind .expectedWord rest)

/-! ### Numbers -/

/-- Digits that continue a significand, as long as it fits into 64 bits: the significand, how
many digits were taken, and what is left. -/
def readSignificand (value count : Nat) : Bytes → Nat × Nat × Bytes
  | [] => (value, count, [])
  | b :: rest =>
    match digit? b with
    | none => (value, count, b :: rest)
    | some d =>
      if value * 10 + d < UInt64.size then readSignificand (value * 10 + d) (count + 1) rest
      else (value, count, b :: rest)

/-- Powers of ten up to here are doubles that need no special care. -/
def maxPower : Nat := 308

/-- Multiply or divide by a power of ten. A division by a large power is done in several steps;
none if the product is out of range. -/
def scaleByPower (x : Floating .double) (exponent : Int) : Nat → Option (Floating .double)
  | 0 => some x
  | steps + 1 =>
    if exponent.natAbs ≤ maxPower then
      let power := Floating.ofNat .double (Nat.pow 10 exponent.natAbs)
      if 0 ≤ exponent then
        let product := x.mul power
        if product.isFinite then some product else none
      else some (x.div power)
    else if x.isZero then some x
    else if 0 ≤ exponent then none
    else
      let quotient := x.div (Floating.ofNat .double (Nat.pow 10 maxPower))
      scaleByPower quotient (exponent + maxPower) steps

/-- Two divisions turn every significand of 64 bits into zero. -/
def maxSteps : Nat := 4

/-- The number of a significand and an exponent, with `rest` left behind it. -/
def readParts (negative : Bool) (significand : Nat) (exponent : Int) (rest : Bytes) :
    Except Fault (Number × Bytes) :=
  match scaleByPower (Floating.ofNat .double significand) exponent maxSteps with
  | none => .error (.behind .numberOutOfRange rest)
  | some x =>
    let x := if negative then x.neg else x
    if h : x.isFinite = true then .ok (.real x h, rest)
    else .error (.behind .numberOutOfRange rest)

/-- Exponents are limited to 31 bits. -/
def exponentBound : Nat := Nat.pow 2 31

/-- Continue an exponent. Past the limit, a positive exponent is out of range and a negative one
gives zero. -/
def readExponentDigits (negative : Bool) (significand : Nat) (start : Int) (down : Bool)
    (exponent : Nat) : Bytes → Except Fault (Number × Bytes)
  | [] => readParts negative significand (if down then start - exponent else start + exponent) []
  | b :: rest =>
    match digit? b with
    | none =>
      readParts negative significand (if down then start - exponent else start + exponent)
        (b :: rest)
    | some d =>
      if exponent * 10 + d < exponentBound then
        readExponentDigits negative significand start down (exponent * 10 + d) rest
      else if significand ≠ 0 ∧ !down then .error (.behind .numberOutOfRange rest)
      else readParts negative 0 0 (skipDigits rest)

/-- An exponent, after its letter. -/
def readExponent (negative : Bool) (significand : Nat) (start : Int) (input : Bytes) :
    Except Fault (Number × Bytes) :=
  let (down, input) := match input with
    | b :: rest => if b = byte '+' then (false, rest) else if b = byte '-' then (true, rest)
      else (false, input)
    | [] => (false, [])
  match input with
  | [] => .error (.behind .endInValue [])
  | b :: rest =>
    match digit? b with
    | none => .error (.behind .badNumber rest)
    | some d => readExponentDigits negative significand start down d rest

/-- An exponent if there is one. -/
def readRest (negative : Bool) (significand : Nat) (start : Int) (input : Bytes) :
    Except Fault (Number × Bytes) :=
  match input with
  | [] => readParts negative significand start []
  | b :: rest =>
    if b = byte 'e' ∨ b = byte 'E' then readExponent negative significand start rest
    else readParts negative significand start (b :: rest)

/-- Decimal places, after the point. Digits that do not fit are dropped. -/
def readPlaces (negative : Bool) (significand : Nat) (start : Int) (input : Bytes) :
    Except Fault (Number × Bytes) :=
  let (value, count, rest) := readSignificand significand 0 input
  if startsWithDigit rest then readRest negative value (start - count) (skipDigits rest)
  else if count = 0 then
    .error (.ahead (if rest.isEmpty then .endInValue else .badNumber) rest)
  else readRest negative value (start - count) rest

/-- Digits of an integer that does not fit: each counts as a power of ten. -/
def readLongInteger (negative : Bool) (significand dropped : Nat) :
    Bytes → Except Fault (Number × Bytes)
  | [] => readParts negative significand dropped []
  | b :: rest =>
    if isDigit b then readLongInteger negative significand (dropped + 1) rest
    else if b = byte '.' then readPlaces negative significand dropped rest
    else readRest negative significand dropped (b :: rest)

/-- A number without places and exponent. A negative zero is a double. -/
def integerNumber (negative : Bool) (significand : Nat) (rest : Bytes) :
    Except Fault (Number × Bytes) :=
  if negative then
    if h : significand - 1 < Nat.pow 2 63 then
      if significand = 0 then readParts true 0 0 rest
      else .ok (.negative ⟨significand - 1, h⟩, rest)
    else readParts true significand 0 rest
  else .ok (.natural (UInt64.ofNat significand), rest)

/-- What follows the integer part. -/
def readAfterInteger (negative : Bool) (significand : Nat) (input : Bytes) :
    Except Fault (Number × Bytes) :=
  match input with
  | [] => integerNumber negative significand []
  | b :: rest =>
    if b = byte '.' then readPlaces negative significand 0 rest
    else if b = byte 'e' ∨ b = byte 'E' then readExponent negative significand 0 rest
    else integerNumber negative significand (b :: rest)

/-- A number, after its sign. -/
def readNumber (negative : Bool) (input : Bytes) : Except Fault (Number × Bytes) :=
  match input with
  | [] => .error (.behind .endInValue [])
  | b :: rest =>
    match digit? b with
    | none => .error (.behind .badNumber rest)
    | some 0 =>
      if startsWithDigit rest then .error (.ahead .badNumber rest)
      else readAfterInteger negative 0 rest
    | some d =>
      let (value, _, rest) := readSignificand d 0 rest
      if startsWithDigit rest then readLongInteger negative value 0 rest
      else readAfterInteger negative value rest

/-- Digits of which there has to be one. The fault of a missing one is given by the caller. -/
def skipSomeDigits (missing : Fault) (input : Bytes) : Except Fault Bytes :=
  if startsWithDigit input then .ok (skipDigits input) else .error missing

/-- Pass over an exponent, after its letter. -/
def skipExponent (input : Bytes) : Except Fault Bytes :=
  let input := match input with
    | b :: rest => if b = byte '+' ∨ b = byte '-' then rest else input
    | [] => []
  skipSomeDigits (.behind .badNumber input.tail) input

def skipRest (input : Bytes) : Except Fault Bytes :=
  match input with
  | [] => .ok []
  | b :: rest => if b = byte 'e' ∨ b = byte 'E' then skipExponent rest else .ok (b :: rest)

/-- Pass over a number, after its sign. Its size does not matter. -/
def skipNumber (input : Bytes) : Except Fault Bytes :=
  match input with
  | [] => .error (.behind .badNumber [])
  | b :: rest =>
    match digit? b with
    | none => .error (.behind .badNumber rest)
    | some d =>
      if d = 0 && startsWithDigit rest then .error (.ahead .badNumber rest)
      else
        match skipDigits rest with
        | [] => .ok []
        | c :: rest =>
          if c = byte '.' then
            (skipSomeDigits (.ahead .badNumber rest) rest).bind skipRest
          else skipRest (c :: rest)

/-! ### Strings -/

/-- What a string literal is made of: bytes that stand for themselves, and characters written as
escapes of `width` bytes. -/
inductive Piece
  | plain (b : UInt8)
  | escaped (c : Char) (width : Nat)

namespace Piece

/-- The bytes of the string. -/
def bytes : Piece → Bytes
  | plain b => [b]
  | escaped c _ => String.utf8EncodeChar c

/-- The bytes of the literal. -/
def width : Piece → Nat
  | plain _ => 1
  | escaped _ width => width

/-- The width of what comes after the first `n` bytes of the string. -/
def widthFrom (n : Nat) : List Piece → Nat
  | [] => 0
  | p :: rest =>
    if p.bytes.length ≤ n then widthFrom (n - p.bytes.length) rest
    else p.width + (rest.map width).sum

end Piece

/-- Where in a string literal a byte stands. A high surrogate has to be followed by an escape of
a low one. -/
inductive StringState
  | text
  | escape
  | hex (high : Option Nat) (needed : Nat) (value : Option Nat)
  | lowBackslash (high : Nat)
  | lowLetter (high : Nat)

/-- The character of an escape with one letter. -/
def letterEscape? (b : UInt8) : Option Char :=
  if b = byte '"' then some '"'
  else if b = byte '\\' then some '\\'
  else if b = byte '/' then some '/'
  else if b = byte 'b' then some '\x08'
  else if b = byte 'f' then some '\x0c'
  else if b = byte 'n' then some '\n'
  else if b = byte 'r' then some '\r'
  else if b = byte 't' then some '\t'
  else none

/-- The code point of a pair of surrogates. -/
def surrogatePair (high low : Nat) : Char :=
  Char.ofNat (0x10000 + (high - 0xD800) * 0x400 + (low - 0xDC00))

/-- Read on in a string literal. If `strict`, escapes of surrogates have to make sense, and a
control character is reported behind itself and not before. -/
def scanString (strict : Bool) (pieces : List Piece) (state : StringState) :
    Bytes → Except Fault (List Piece × Bytes)
  | [] => .error (.behind .endInString [])
  | b :: rest =>
    match state with
    | .text =>
      if b = byte '"' then .ok (pieces.reverse, rest)
      else if b = byte '\\' then scanString strict pieces .escape rest
      else if b < 0x20 then
        .error (.behind .controlCharacter (if strict then rest else b :: rest))
      else scanString strict (.plain b :: pieces) .text rest
    | .escape =>
      match letterEscape? b with
      | some c => scanString strict (.escaped c 2 :: pieces) .text rest
      | none =>
        if b = byte 'u' then scanString strict pieces (.hex none 4 (some 0)) rest
        else .error (.behind .badEscape rest)
    | .hex high needed value =>
      let value := value.bind fun v => (hexDigit? b).map fun d => v * 16 + d
      if 1 < needed then scanString strict pieces (.hex high (needed - 1) value) rest
      else
        match value, high with
        | none, _ => .error (.behind .badEscape rest)
        | some n, none =>
          if !strict then scanString strict pieces .text rest
          else if 0xDC00 ≤ n ∧ n ≤ 0xDFFF then .error (.behind .loneSurrogate rest)
          else if 0xD800 ≤ n ∧ n ≤ 0xDBFF then scanString strict pieces (.lowBackslash n) rest
          else scanString strict (.escaped (Char.ofNat n) 6 :: pieces) .text rest
        | some low, some high =>
          if low < 0xDC00 ∨ 0xDFFF < low then .error (.behind .loneSurrogate rest)
          else scanString strict (.escaped (surrogatePair high low) 12 :: pieces) .text rest
    | .lowBackslash high =>
      if b = byte '\\' then scanString strict pieces (.lowLetter high) rest
      else .error (.behind .endOfHexEscape rest)
    | .lowLetter high =>
      if b = byte 'u' then scanString strict pieces (.hex (some high) 4 (some 0)) rest
      else .error (.behind .endOfHexEscape rest)

/-- A string, after the opening quote. That its bytes are text is checked when its end is
known. -/
def readString (input : Bytes) : Except Fault (String × Bytes) :=
  (scanString true [] .text input).bind fun (pieces, rest) =>
    match Utf8.decode (pieces.flatMap Piece.bytes) with
    | .ok s => .ok (String.ofList s, rest)
    | .error f => .error ⟨.badCodePoint, rest.length + Piece.widthFrom f.validLength pieces⟩

/-- Pass over a string, after the opening quote. -/
def skipString (input : Bytes) : Except Fault Bytes :=
  (scanString false [] .text input).map Prod.snd

/-! ### Punctuation -/

/-- Where the next item of an array begins, if there is one. -/
def nextItem (first : Bool) (input : Bytes) : Except Fault (Option Bytes) :=
  match skipBlanks input with
  | [] => .error (.ahead .endInList [])
  | b :: rest =>
    if b = byte ']' then .ok none
    else if first then .ok (some (b :: rest))
    else if b = byte ',' then
      match skipBlanks rest with
      | [] => .error (.ahead .endInValue [])
      | c :: rest =>
        if c = byte ']' then .error (.ahead .trailingComma (c :: rest))
        else .ok (some (c :: rest))
    else .error (.ahead .expectedListComma (b :: rest))

/-- The end of an array. -/
def endArray (input : Bytes) : Except Fault Bytes :=
  match skipBlanks input with
  | [] => .error (.ahead .endInList [])
  | b :: rest =>
    if b = byte ']' then .ok rest
    else if b = byte ',' then
      match skipBlanks rest with
      | [] => .error (.ahead .trailingCharacters [])
      | c :: rest =>
        .error (.ahead (if c = byte ']' then .trailingComma else .trailingCharacters) (c :: rest))
    else .error (.ahead .trailingCharacters (b :: rest))

/-- A key has to begin here; what is left is what follows its opening quote. -/
def openKey (b : UInt8) (rest : Bytes) : Except Fault (Option Bytes) :=
  if b = byte '"' then .ok (some rest) else .error (.ahead .keyNotString (b :: rest))

/-- What follows the opening quote of the next key of an object, if there is one. -/
def nextKey (first : Bool) (input : Bytes) : Except Fault (Option Bytes) :=
  match skipBlanks input with
  | [] => .error (.ahead .endInObject [])
  | b :: rest =>
    if b = byte '\x7d' then .ok none
    else if first then openKey b rest
    else if b = byte ',' then
      match skipBlanks rest with
      | [] => .error (.ahead .endInValue [])
      | c :: rest =>
        if c = byte '\x7d' then .error (.ahead .trailingComma (c :: rest)) else openKey c rest
    else .error (.ahead .expectedObjectComma (b :: rest))

def readColon (input : Bytes) : Except Fault Bytes :=
  match skipBlanks input with
  | [] => .error (.ahead .endInObject [])
  | b :: rest =>
    if b = byte ':' then .ok rest else .error (.ahead .expectedColon (b :: rest))

/-- The end of an object. -/
def endObject (input : Bytes) : Except Fault Bytes :=
  match skipBlanks input with
  | [] => .error (.ahead .endInObject [])
  | b :: rest =>
    if b = byte '\x7d' then .ok rest
    else if b = byte ',' then .error (.ahead .trailingComma (b :: rest))
    else .error (.ahead .trailingCharacters (b :: rest))

end Json

end PlatformProxy
