import PlatformProxy.Text.CharSet

/-!
# Decimal digits and numerals

Two classes of digits matter. Numerals are *read* in ASCII digits only, but a header line is
*recognised* by any Unicode decimal digit, so that a numeral in another script is reported as a
bad numeral and not as a missing line.

## Main definitions

* `isDecimalDigit` — the Unicode category of decimal digits
* `digitValue?` — the value of an ASCII digit
* `baseValue?` — the value of digits in another base
* `readBounded` — an unsigned numeral below a bound, with what is wrong with it otherwise

## Main results

* `readBounded_eq_ok_iff` — what is accepted: one or more ASCII digits with a value below the
  bound
-/

namespace PlatformProxy

namespace Text

/-- The Unicode category `Nd`. -/
def decimalDigits : CharSet := .ofRanges
  [(0x30, 0x39), (0x660, 0x669), (0x6f0, 0x6f9), (0x7c0, 0x7c9), (0x966, 0x96f), (0x9e6, 0x9ef),
   (0xa66, 0xa6f), (0xae6, 0xaef), (0xb66, 0xb6f), (0xbe6, 0xbef), (0xc66, 0xc6f), (0xce6, 0xcef),
   (0xd66, 0xd6f), (0xde6, 0xdef), (0xe50, 0xe59), (0xed0, 0xed9), (0xf20, 0xf29),
   (0x1040, 0x1049), (0x1090, 0x1099), (0x17e0, 0x17e9), (0x1810, 0x1819), (0x1946, 0x194f),
   (0x19d0, 0x19d9), (0x1a80, 0x1a89), (0x1a90, 0x1a99), (0x1b50, 0x1b59), (0x1bb0, 0x1bb9),
   (0x1c40, 0x1c49), (0x1c50, 0x1c59), (0xa620, 0xa629), (0xa8d0, 0xa8d9), (0xa900, 0xa909),
   (0xa9d0, 0xa9d9), (0xa9f0, 0xa9f9), (0xaa50, 0xaa59), (0xabf0, 0xabf9), (0xff10, 0xff19),
   (0x104a0, 0x104a9), (0x10d30, 0x10d39), (0x10d40, 0x10d49), (0x11066, 0x1106f),
   (0x110f0, 0x110f9), (0x11136, 0x1113f), (0x111d0, 0x111d9), (0x112f0, 0x112f9),
   (0x11450, 0x11459), (0x114d0, 0x114d9), (0x11650, 0x11659), (0x116c0, 0x116c9),
   (0x116d0, 0x116e3), (0x11730, 0x11739), (0x118e0, 0x118e9), (0x11950, 0x11959),
   (0x11bf0, 0x11bf9), (0x11c50, 0x11c59), (0x11d50, 0x11d59), (0x11da0, 0x11da9),
   (0x11f50, 0x11f59), (0x16a60, 0x16a69), (0x16ac0, 0x16ac9), (0x16b50, 0x16b59),
   (0x16d70, 0x16d79), (0x1ccf0, 0x1ccf9), (0x1d7ce, 0x1d7ff), (0x1e140, 0x1e149),
   (0x1e2f0, 0x1e2f9), (0x1e4f0, 0x1e4f9), (0x1e5f1, 0x1e5fa), (0x1e950, 0x1e959),
   (0x1fbf0, 0x1fbf9)]

def isDecimalDigit (c : Char) : Bool := decimalDigits.contains c

/-- The value of an ASCII digit. -/
def digitValue? (c : Char) : Option Nat :=
  if '0' ≤ c ∧ c ≤ '9' then some (c.toNat - '0'.toNat) else none

/-- What can be wrong with a numeral. -/
inductive NumeralError
  | empty
  | invalidDigit
  | tooLarge
  deriving DecidableEq, Repr

namespace NumeralError

def message : NumeralError → String
  | empty => "cannot parse integer from empty string"
  | invalidDigit => "invalid digit found in string"
  | tooLarge => "number too large to fit in target type"

end NumeralError

/-- Continue a numeral whose digits so far have the value `value`; the first fault counts. -/
def readBoundedFrom (bound : Nat) (value : Nat) : List Char → Except NumeralError Nat
  | [] => .ok value
  | c :: rest =>
    match digitValue? c with
    | none => .error .invalidDigit
    | some d =>
      if value * 10 + d < bound then readBoundedFrom bound (value * 10 + d) rest
      else .error .tooLarge

/-- Read an unsigned decimal numeral with a value below `bound`. Leading zeros are allowed in any
number. -/
def readBounded (bound : Nat) : List Char → Except NumeralError Nat
  | [] => .error .empty
  | c :: rest => readBoundedFrom bound 0 (c :: rest)

/-- The value of a list of digits read after digits of value `value`. -/
def digitsValue (value : Nat) : List Char → Option Nat
  | [] => some value
  | c :: rest => (digitValue? c).bind fun d => digitsValue (value * 10 + d) rest

/-- The value of a digit in a base up to sixteen, in either case. -/
def baseDigit? (base : Nat) (c : Char) : Option Nat :=
  let value :=
    if '0' ≤ c ∧ c ≤ '9' then some (c.toNat - 48)
    else if 'a' ≤ c ∧ c ≤ 'f' then some (c.toNat - 87)
    else if 'A' ≤ c ∧ c ≤ 'F' then some (c.toNat - 55)
    else none
  value.filter (· < base)

/-- The value of one or more digits in a base. -/
def baseValue? (base : Nat) (s : List Char) : Option Nat :=
  if s = [] then none
  else s.foldlM (fun value c => (baseDigit? base c).map fun d => value * base + d) 0

/-- The value of digits in a base with an optional sign. -/
def signedValue? (base : Nat) (s : List Char) : Option Int :=
  match s with
  | '-' :: digits => (baseValue? base digits).map fun n => -(n : Int)
  | '+' :: digits => (baseValue? base digits).map Int.ofNat
  | digits => (baseValue? base digits).map Int.ofNat

/-- The same within 64 bits. -/
def readInt64? (base : Nat) (s : List Char) : Option Int :=
  (signedValue? base s).filter fun i => Int64.minValue.toInt ≤ i && i ≤ Int64.maxValue.toInt

/-- The natural number written in decimal, most significant digit first. -/
def decimal (n : Nat) : List Char := (toString n).toList

/-! ### What is accepted -/

theorem le_of_digitsValue {value n : Nat} {s : List Char} (h : digitsValue value s = some n) :
    value ≤ n := by
  induction s generalizing value with
  | nil => simp_all [digitsValue]
  | cons c rest ih =>
    simp only [digitsValue, Option.bind_eq_some_iff] at h
    obtain ⟨d, -, h⟩ := h
    have := ih h
    omega

theorem readBoundedFrom_eq_ok_iff {bound value n : Nat} {s : List Char} (hv : value < bound) :
    readBoundedFrom bound value s = .ok n ↔ digitsValue value s = some n ∧ n < bound := by
  induction s generalizing value with
  | nil =>
    simp only [readBoundedFrom, digitsValue, Except.ok.injEq, Option.some.injEq]
    exact ⟨fun h => ⟨h, h ▸ hv⟩, fun h => h.1⟩
  | cons c rest ih =>
    simp only [readBoundedFrom, digitsValue]
    cases hd : digitValue? c with
    | none => simp
    | some d =>
      simp only [Option.bind_some]
      split
      · rename_i hlt
        exact ih hlt
      · rename_i hge
        simp only [reduceCtorEq, false_iff, not_and]
        intro h
        have := le_of_digitsValue h
        omega

theorem readBounded_eq_ok_iff {bound n : Nat} {s : List Char} (hb : 0 < bound) :
    readBounded bound s = .ok n ↔ s ≠ [] ∧ digitsValue 0 s = some n ∧ n < bound := by
  cases s with
  | nil => simp [readBounded]
  | cons c rest => simp [readBounded, readBoundedFrom_eq_ok_iff hb]

end Text

end PlatformProxy
