/-!
# Binary floating-point numbers

Scores and JSON numbers are binary floating-point numbers of two formats. They are kept as their
bit patterns, and all arithmetic on them is exact arithmetic on natural numbers followed by one
rounding, so that every operation can be computed and reasoned about.

## Main definitions

* `Floating.Format`, `Format.double`, `Format.single` — the two formats
* `Floating` — a number of a format, as bits
* `Floating.significand`, `Floating.exponent` — the magnitude is `significand * 2 ^ exponent`
* `Floating.ofRatio` — the number nearest to a quotient, ties to even
* `Floating.mul`, `Floating.div`, `Floating.convert` — the operations in use

## Implementation notes

Read as natural numbers, the bits of the non-negative numbers are ordered like the numbers. A
rounded significand that overflows into the next binade therefore needs no special case: adding
it to the bits of the binade's start carries into the exponent by itself.
-/

namespace PlatformProxy

namespace Floating

/-- A binary interchange format: bits of precision, the leading bit included, and bits of the
exponent. -/
structure Format where
  precision : Nat
  exponentBits : Nat
  deriving DecidableEq, Repr

namespace Format

def double : Format := ⟨53, 11⟩

def single : Format := ⟨24, 8⟩

/-- Bits stored for the significand. -/
def fractionBits (f : Format) : Nat := f.precision - 1

def width (f : Format) : Nat := f.precision + f.exponentBits

/-- The stored exponent of the infinities and of the values that are not a number. -/
def specialExponent (f : Format) : Nat := Nat.pow 2 f.exponentBits - 1

/-- The exponent of the last place of the smallest numbers. -/
def minExponent (f : Format) : Int := 3 - Nat.pow 2 (f.exponentBits - 1) - f.precision

end Format

end Floating

/-- A floating-point number, as its bit pattern. -/
structure Floating (f : Floating.Format) where
  bits : BitVec f.width
  deriving DecidableEq, Repr

namespace Floating

variable {f : Format}

/-! ### The parts of a number -/

def negative (x : Floating f) : Bool := x.bits.msb

def storedExponent (x : Floating f) : Nat :=
  x.bits.toNat / Nat.pow 2 f.fractionBits % Nat.pow 2 f.exponentBits

def fraction (x : Floating f) : Nat := x.bits.toNat % Nat.pow 2 f.fractionBits

def isFinite (x : Floating f) : Bool := x.storedExponent ≠ f.specialExponent

def isNaN (x : Floating f) : Bool := !x.isFinite && x.fraction ≠ 0

/-- The magnitude of a finite number is `significand * 2 ^ exponent`. -/
def significand (x : Floating f) : Nat :=
  if x.storedExponent = 0 then x.fraction else Nat.pow 2 f.fractionBits + x.fraction

def exponent (x : Floating f) : Int := f.minExponent + (x.storedExponent - 1 : Nat)

def isZero (x : Floating f) : Bool := x.isFinite && x.significand = 0

/-- The numerator of the magnitude, over `denominator`. -/
def numerator (x : Floating f) : Nat := x.significand * Nat.pow 2 x.exponent.toNat

def denominator (x : Floating f) : Nat := Nat.pow 2 (-x.exponent).toNat

/-! ### Building numbers -/

/-- The number with the given sign whose remaining bits are `magnitude`. -/
def ofMagnitude (f : Format) (negative : Bool) (magnitude : Nat) : Floating f :=
  ⟨BitVec.ofNat f.width (magnitude + if negative then Nat.pow 2 (f.width - 1) else 0)⟩

def zero (f : Format) (negative : Bool) : Floating f := ofMagnitude f negative 0

def infinity (f : Format) (negative : Bool) : Floating f :=
  ofMagnitude f negative (f.specialExponent * Nat.pow 2 f.fractionBits)

def nan (f : Format) : Floating f :=
  ofMagnitude f false
    (f.specialExponent * Nat.pow 2 f.fractionBits + Nat.pow 2 (f.fractionBits - 1))

/-- The integer nearest to a quotient; halves go to the even neighbour. -/
def roundHalfEven (num den : Nat) : Nat :=
  let q := num / den
  let r := num % den
  if den < 2 * r ∨ (2 * r = den ∧ q % 2 = 1) then q + 1 else q

/-- The largest `e` with `2 ^ e ≤ num / den`, for positive `num` and `den`. -/
def floorLog2 (num den : Nat) : Int :=
  let e : Int := (Nat.log2 num : Int) - Nat.log2 den
  if den * Nat.pow 2 e.toNat ≤ num * Nat.pow 2 (-e).toNat then e else e - 1

/-- The bits, less the sign, of the number nearest to a positive quotient. -/
def magnitudeOfRatio (f : Format) (num den : Nat) : Nat :=
  let q := max f.minExponent (floorLog2 num den - f.fractionBits)
  let m := roundHalfEven (num * Nat.pow 2 (-q).toNat) (den * Nat.pow 2 q.toNat)
  min ((q - f.minExponent).toNat * Nat.pow 2 f.fractionBits + m)
    (f.specialExponent * Nat.pow 2 f.fractionBits)

/-- The number nearest to `num / den` with the given sign. -/
def ofRatio (f : Format) (negative : Bool) (num den : Nat) : Floating f :=
  ofMagnitude f negative (if num = 0 then 0 else magnitudeOfRatio f num den)

def ofNat (f : Format) (n : Nat) : Floating f := ofRatio f false n 1

def ofInt (f : Format) (n : Int) : Floating f := ofRatio f (n < 0) n.natAbs 1

/-- The number nearest to `digits * 10 ^ exponent`. Exponents beyond the range of every format
are cut off before the power is formed. -/
def ofDecimal (f : Format) (negative : Bool) (digits : Nat) (exponent : Int) : Floating f :=
  if digits = 0 then zero f negative
  else if Nat.pow 2 f.exponentBits < exponent then infinity f negative
  else if exponent < -(Nat.pow 2 f.exponentBits + Nat.log2 digits : Int) then zero f negative
  else ofRatio f negative (digits * Nat.pow 10 exponent.toNat) (Nat.pow 10 (-exponent).toNat)

/-! ### Operations -/

/-- The nearest number of another format. -/
def convert (g : Format) (x : Floating f) : Floating g :=
  if x.isNaN then nan g
  else if x.isFinite then ofRatio g x.negative x.numerator x.denominator
  else infinity g x.negative

def neg (x : Floating f) : Floating f := ⟨x.bits ^^^ BitVec.ofNat f.width (Nat.pow 2 (f.width - 1))⟩

def mul (x y : Floating f) : Floating f :=
  let negative := x.negative != y.negative
  if x.isNaN || y.isNaN then nan f
  else if x.isFinite && y.isFinite then
    ofRatio f negative (x.numerator * y.numerator) (x.denominator * y.denominator)
  else if x.isZero || y.isZero then nan f
  else infinity f negative

def div (x y : Floating f) : Floating f :=
  let negative := x.negative != y.negative
  if x.isNaN || y.isNaN then nan f
  else if x.isFinite && y.isFinite then
    if y.isZero then (if x.isZero then nan f else infinity f negative)
    else ofRatio f negative (x.numerator * y.denominator) (x.denominator * y.numerator)
  else if x.isFinite then zero f negative
  else if y.isFinite then infinity f negative
  else nan f

/-- The nearest integer, halves away from zero, of a finite number. -/
def roundHalfAway (x : Floating f) : Int :=
  let magnitude := (2 * x.numerator + x.denominator) / (2 * x.denominator)
  if x.negative then -(magnitude : Int) else magnitude

end Floating

end PlatformProxy
