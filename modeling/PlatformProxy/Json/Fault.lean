import PlatformProxy.Json.Mismatch

/-!
# What can be wrong with a JSON text

A reader works on the bytes that are left. A fault therefore records how many bytes were left, and
its line and column are worked out from the whole text only when it is reported. Some faults lie
behind the bytes already taken, others at the next byte; the next byte counts as taken in the
second case.

## Main definitions

* `Json.Reason` — what is wrong
* `Json.Fault` — a reason and a place
* `Json.Fault.behind`, `Json.Fault.ahead` — faults at the two kinds of places
* `Json.Fault.message` — the report, with line and column
-/

namespace PlatformProxy

namespace Json

/-- What is wrong with a text. `mistyped` texts are JSON, but not of the wanted type. -/
inductive Reason
  | endInList
  | endInObject
  | endInString
  | endInValue
  | expectedColon
  | expectedListComma
  | expectedObjectComma
  | expectedWord
  | expectedValue
  | badEscape
  | badNumber
  | numberOutOfRange
  | badCodePoint
  | controlCharacter
  | keyNotString
  | loneSurrogate
  | trailingComma
  | trailingCharacters
  | endOfHexEscape
  | tooDeep
  | mistyped (mismatch : Mismatch)
  deriving DecidableEq, Repr

namespace Reason

def message : Reason → String
  | endInList => "EOF while parsing a list"
  | endInObject => "EOF while parsing an object"
  | endInString => "EOF while parsing a string"
  | endInValue => "EOF while parsing a value"
  | expectedColon => "expected `:`"
  | expectedListComma => "expected `,` or `]`"
  | expectedObjectComma => "expected `,` or `\x7d`"
  | expectedWord => "expected ident"
  | expectedValue => "expected value"
  | badEscape => "invalid escape"
  | badNumber => "invalid number"
  | numberOutOfRange => "number out of range"
  | badCodePoint => "invalid unicode code point"
  | controlCharacter => "control character (\\u0000-\\u001F) found while parsing a string"
  | keyNotString => "key must be a string"
  | loneSurrogate => "lone leading surrogate in hex escape"
  | trailingComma => "trailing comma"
  | trailingCharacters => "trailing characters"
  | endOfHexEscape => "unexpected end of hex escape"
  | tooDeep => "recursion limit exceeded"
  | mistyped mismatch => mismatch.message

end Reason

/-- A reason, and how many bytes were left after the place it refers to. -/
structure Fault where
  reason : Reason
  left : Nat
  deriving DecidableEq, Repr

namespace Fault

/-- A fault in what was taken, with `rest` still to come. -/
def behind (reason : Reason) (rest : Bytes) : Fault := ⟨reason, rest.length⟩

/-- A fault at the next byte, or at the end if there is none. -/
def ahead (reason : Reason) (rest : Bytes) : Fault := ⟨reason, rest.length - 1⟩

def newline : UInt8 := 0x0A

/-- Line and column of the last of some bytes: lines count from one, and columns count the bytes
since the last line feed. -/
def place (taken : Bytes) : Nat × Nat :=
  (taken.count newline + 1, (taken.reverse.takeWhile (· ≠ newline)).length)

/-- The report of a fault in a text. -/
def message (input : Bytes) (f : Fault) : String :=
  let p := place (input.take (input.length - f.left))
  f.reason.message ++ " at line " ++ toString p.1 ++ " column " ++ toString p.2

end Fault

end Json

end PlatformProxy
