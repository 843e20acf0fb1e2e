/-!
# UTF-8

Bytes arrive from the network and from files; text is a list of characters. Reading goes byte by
byte through a small state, so that a fault is known with its position and its length: the bytes
that could have begun a character and were refused at the next one.

## Main definitions

* `encode` — the bytes of a text
* `decode` — the text of some bytes, or the first fault
* `decodeLossy` — the same with a replacement character for every fault
-/

namespace PlatformProxy

/-- Raw data, as sent and stored. -/
abbrev Bytes := List UInt8

namespace Utf8

/-- The bytes of a text. -/
def encode (s : List Char) : Bytes := s.flatMap String.utf8EncodeChar

/-- A character that has begun: the bytes seen, those still needed, the value so far, and the
range in which the next byte has to lie. -/
structure Pending where
  seen : Nat
  needed : Nat
  value : Nat
  low : UInt8
  high : UInt8

/-- What a first byte announces. -/
inductive Lead
  | single (c : Char)
  | several (p : Pending)
  | invalid

/-- The ranges after `E0`, `ED`, `F0` and `F4` keep out long forms, surrogates and values beyond
the last code point. -/
def lead (b : UInt8) : Lead :=
  let begin (needed mask : Nat) (low high : UInt8) : Lead :=
    .several ⟨1, needed, b.toNat % mask, low, high⟩
  if b < 0x80 then .single (Char.ofNat b.toNat)
  else if b < 0xC2 then .invalid
  else if b < 0xE0 then begin 1 32 0x80 0xBF
  else if b = 0xE0 then begin 2 16 0xA0 0xBF
  else if b = 0xED then begin 2 16 0x80 0x9F
  else if b < 0xF0 then begin 2 16 0x80 0xBF
  else if b = 0xF0 then begin 3 8 0x90 0xBF
  else if b < 0xF4 then begin 3 8 0x80 0xBF
  else if b = 0xF4 then begin 3 8 0x80 0x8F
  else .invalid

/-- A fault: how many bytes were read as text before it, and the length of the refused
sequence, or none if the bytes end inside a character. -/
structure Fault where
  validLength : Nat
  length : Option Nat
  deriving DecidableEq, Repr

namespace Fault

def message (f : Fault) : String :=
  match f.length with
  | some n =>
    "invalid utf-8 sequence of " ++ toString n ++ " bytes from index " ++ toString f.validLength
  | none => "incomplete utf-8 byte sequence from index " ++ toString f.validLength

end Fault

/-- Continue reading: `length` bytes are text already, `acc` is that text backwards, and a
character may have begun. -/
def decodeFrom (length : Nat) (acc : List Char) (pending : Option Pending) :
    Bytes → Except Fault (List Char)
  | [] =>
    match pending with
    | none => .ok acc.reverse
    | some _ => .error ⟨length, none⟩
  | b :: rest =>
    match pending with
    | none =>
      match lead b with
      | .single c => decodeFrom (length + 1) (c :: acc) none rest
      | .several p => decodeFrom length acc (some p) rest
      | .invalid => .error ⟨length, some 1⟩
    | some p =>
      if p.low ≤ b ∧ b ≤ p.high then
        let value := p.value * 64 + b.toNat % 64
        if p.needed ≤ 1 then decodeFrom (length + p.seen + 1) (Char.ofNat value :: acc) none rest
        else decodeFrom length acc (some ⟨p.seen + 1, p.needed - 1, value, 0x80, 0xBF⟩) rest
      else .error ⟨length, some p.seen⟩

/-- The text of some bytes, or the first fault. -/
def decode (bytes : Bytes) : Except Fault (List Char) := decodeFrom 0 [] none bytes

/-- What replaces a fault in a lossy reading. -/
def replacement : Char := '\ufffd'

/-- Lossy reading: every refused sequence becomes one replacement character, and the byte that
refused it is read afresh. -/
def decodeLossyFrom (acc : List Char) (pending : Option Pending) : Bytes → List Char
  | [] => (if pending.isSome then replacement :: acc else acc).reverse
  | b :: rest =>
    let fresh (acc : List Char) : List Char × Option Pending :=
      match lead b with
      | .single c => (c :: acc, none)
      | .several p => (acc, some p)
      | .invalid => (replacement :: acc, none)
    let (acc', pending') := match pending with
      | none => fresh acc
      | some p =>
        if p.low ≤ b ∧ b ≤ p.high then
          let value := p.value * 64 + b.toNat % 64
          if p.needed ≤ 1 then (Char.ofNat value :: acc, none)
          else (acc, some ⟨p.seen + 1, p.needed - 1, value, 0x80, 0xBF⟩)
        else fresh (replacement :: acc)
    decodeLossyFrom acc' pending' rest

def decodeLossy (bytes : Bytes) : List Char := decodeLossyFrom [] none bytes

/-- The bytes of a string. -/
def ofString (s : String) : Bytes := encode s.toList

/-- The string written by some bytes. -/
def toString? (bytes : Bytes) : Option String :=
  match decode bytes with
  | .ok s => some (String.ofList s)
  | .error _ => none

end Utf8

end PlatformProxy
