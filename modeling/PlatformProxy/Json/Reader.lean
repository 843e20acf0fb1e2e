import PlatformProxy.Json.Lexer

/-!
# Reading JSON

A value is read off the front of some bytes; a whole text is a value with nothing but blanks
around it. Values nest at most 127 deep. Passing over a value that nobody wants is a reader of its
own, more lenient about what it passes over and without a limit on nesting.

## Main definitions

* `Json.readItems`, `Json.readMembers` — the contents of arrays and objects, given a reader for
  one item or one member
* `Json.readValue` — a value
* `Json.skipValue` — the end of a value
* `Json.readWhole`, `Json.parse` — whole texts

## Implementation notes

Every item takes at least one byte, so the length of the input bounds every loop. The limit on
nesting is what `readValue` recurses on.
-/

namespace PlatformProxy

namespace Json

/-- Arrays and objects within one another. -/
def maxDepth : Nat := 127

/-- The items of an array up to its end, given backwards what was read already. -/
def readItems {α : Type} (item : Bytes → Except Fault (α × Bytes)) :
    (fuel : Nat) → (first : Bool) → (acc : List α) → Bytes → Except Fault (List α × Bytes)
  | 0, _, _, input => .error (.ahead .endInList input)
  | fuel + 1, first, acc, input =>
    match nextItem first input with
    | .error f => .error f
    | .ok none => .ok (acc.reverse, input)
    | .ok (some input) =>
      match item input with
      | .error f => .error f
      | .ok (v, rest) => readItems item fuel false (v :: acc) rest

/-- The members of an object up to its end. The reader of a member gets what was gathered before
and the name; it starts at the colon. -/
def readMembers {σ : Type} (member : σ → String → Bytes → Except Fault (σ × Bytes)) :
    (fuel : Nat) → (first : Bool) → σ → Bytes → Except Fault (σ × Bytes)
  | 0, _, _, input => .error (.ahead .endInObject input)
  | fuel + 1, first, acc, input =>
    match nextKey first input with
    | .error f => .error f
    | .ok none => .ok (acc, input)
    | .ok (some input) =>
      match readString input with
      | .error f => .error f
      | .ok (name, input) =>
        match member acc name input with
        | .error f => .error f
        | .ok (acc, rest) => readMembers member fuel false acc rest

/-- Read a value, at most `depth` arrays and objects deep. -/
def readValue : (depth : Nat) → Bytes → Except Fault (Json × Bytes)
  | depth, input =>
    match skipBlanks input with
    | [] => .error (.ahead .endInValue [])
    | b :: rest =>
      if b = byte 'n' then (readWord ['u', 'l', 'l'] rest).map (null, ·)
      else if b = byte 't' then (readWord ['r', 'u', 'e'] rest).map (bool true, ·)
      else if b = byte 'f' then (readWord ['a', 'l', 's', 'e'] rest).map (bool false, ·)
      else if b = byte '-' then (readNumber true rest).map fun (n, rest) => (number n, rest)
      else if isDigit b then (readNumber false (b :: rest)).map fun (n, rest) => (number n, rest)
      else if b = byte '"' then (readString rest).map fun (s, rest) => (string s, rest)
      else if b = byte '[' then
        match depth with
        | 0 => .error (.ahead .tooDeep (b :: rest))
        | depth + 1 => do
          let (items, rest) ← readItems (readValue depth) (rest.length + 1) true [] rest
          let rest ← endArray rest
          pure (array items, rest)
      else if b = byte '\x7b' then
        match depth with
        | 0 => .error (.ahead .tooDeep (b :: rest))
        | depth + 1 => do
          let member := fun acc name input => do
            let input ← readColon input
            let (v, rest) ← readValue depth input
            pure (insertMember name v acc, rest)
          let (members, rest) ← readMembers member (rest.length + 1) true [] rest
          let rest ← endObject rest
          pure (object members, rest)
      else .error (.ahead .expectedValue (b :: rest))

/-! ### Values nobody wants -/

/-- The kinds of brackets that are open. -/
inductive Bracket
  | square
  | curly
  deriving DecidableEq

namespace Bracket

def close : Bracket → UInt8
  | square => byte ']'
  | curly => byte '\x7d'

/-- The text ends within the bracket. -/
def unclosed : Bracket → Reason
  | square => .endInList
  | curly => .endInObject

/-- Something other than a comma or the end follows an item. -/
def expectedComma : Bracket → Reason
  | square => .expectedListComma
  | curly => .expectedObjectComma

end Bracket

/-- Pass over a key and its colon. -/
def skipKey (input : Bytes) : Except Fault Bytes :=
  match skipBlanks input with
  | [] => .error (.ahead .endInObject [])
  | b :: rest =>
    if b = byte '"' then (skipString rest).bind readColon
    else .error (.ahead .keyNotString (b :: rest))

/-- Where passing over a value stands: before a value, or within the innermost bracket, after an
item or at the start. -/
inductive SkipState
  | value
  | within (afterItem : Bool)

/-- Pass over the rest of a value with the given brackets open, innermost first. -/
def skipFrom : (fuel : Nat) → SkipState → (enclosing : List Bracket) → Bytes → Except Fault Bytes
  | 0, _, _, input => .error (.ahead .endInValue input)
  | _ + 1, .within _, [], input => .ok input
  | fuel + 1, .within afterItem, bracket :: enclosing, input =>
    match skipBlanks input with
    | [] => .error (.ahead bracket.unclosed [])
    | b :: rest =>
      if b = bracket.close then skipFrom fuel (.within true) enclosing rest
      else if afterItem && b ≠ byte ',' then .error (.ahead bracket.expectedComma (b :: rest))
      else
        let input := if afterItem then rest else b :: rest
        match bracket with
        | .square => skipFrom fuel .value (bracket :: enclosing) input
        | .curly =>
          match skipKey input with
          | .error f => .error f
          | .ok rest => skipFrom fuel .value (bracket :: enclosing) rest
  | fuel + 1, .value, enclosing, input =>
    let scalar : Except Fault Bytes → Except Fault Bytes
      | .error f => .error f
      | .ok rest => skipFrom fuel (.within true) enclosing rest
    match skipBlanks input with
    | [] => .error (.ahead .endInValue [])
    | b :: rest =>
      if b = byte 'n' then scalar (readWord ['u', 'l', 'l'] rest)
      else if b = byte 't' then scalar (readWord ['r', 'u', 'e'] rest)
      else if b = byte 'f' then scalar (readWord ['a', 'l', 's', 'e'] rest)
      else if b = byte '-' then scalar (skipNumber rest)
      else if isDigit b then scalar (skipNumber (b :: rest))
      else if b = byte '"' then scalar (skipString rest)
      else if b = byte '[' then skipFrom fuel (.within false) (.square :: enclosing) rest
      else if b = byte '\x7b' then skipFrom fuel (.within false) (.curly :: enclosing) rest
      else .error (.ahead .expectedValue (b :: rest))

/-- Pass over a value. -/
def skipValue (input : Bytes) : Except Fault Bytes :=
  skipFrom (2 * input.length + 2) .value [] input

/-! ### Whole texts -/

/-- Read something that makes up a whole text. -/
def readWhole {α : Type} (reader : Bytes → Except Fault (α × Bytes)) (input : Bytes) :
    Except Fault α :=
  match reader input with
  | .error f => .error f
  | .ok (v, rest) =>
    match skipBlanks rest with
    | [] => .ok v
    | b :: rest => .error (.ahead .trailingCharacters (b :: rest))

/-- The value a text stands for. -/
def parse (input : Bytes) : Except Fault Json := readWhole (readValue maxDepth) input

end Json

end PlatformProxy
