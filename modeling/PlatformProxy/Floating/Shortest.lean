import PlatformProxy.Floating.Basic

/-!
# The shortest decimal that reads back

A floating-point number stands for every real number that rounds to it. Among the decimals in
that interval, the one with the fewest digits is written; of several, the one nearest to the
number itself.

## Main definitions

* `Floating.Decimal` — a decimal `digits * 10 ^ exponent`
* `Floating.Rounding` — the interval of reals that round to a number, over a common denominator
* `Floating.shortest` — the shortest decimal in the interval of a number

## Implementation notes

On the grid of the multiples of a power of ten, only the two neighbours of the number need to be
tried: if any multiple lies in the interval, so does one of them. The grids are tried from the
coarsest on which the number has a digit; two more digits than the precision has are always
enough.
-/

namespace PlatformProxy

namespace Floating

/-- The number `digits * 10 ^ exponent`. -/
structure Decimal where
  digits : Nat
  exponent : Int
  deriving DecidableEq, Repr

namespace Decimal

/-- Without trailing zeros, looking at no more than `limit` digits. -/
def strip (limit : Nat) (d : Decimal) : Decimal :=
  match limit with
  | 0 => d
  | limit + 1 =>
    if d.digits ≠ 0 ∧ d.digits % 10 = 0 then strip limit ⟨d.digits / 10, d.exponent + 1⟩ else d

end Decimal

/-- The reals that round to a number: those between `low / den` and `high / den`, with the ends
if `closed`. The number itself is `value / den`. -/
structure Rounding where
  low : Nat
  value : Nat
  high : Nat
  den : Nat
  closed : Bool

variable {f : Format}

/-- The interval of a finite number, in quarters of its last place: the numbers next to it are
one place away, but only half a place below the start of a binade. -/
def rounding (x : Floating f) : Rounding :=
  let m := x.significand
  let unit := Nat.pow 2 x.exponent.toNat
  let below := if m = Nat.pow 2 f.fractionBits ∧ f.minExponent < x.exponent then 1 else 2
  { low := (4 * m - below) * unit
    value := 4 * m * unit
    high := (4 * m + 2) * unit
    den := 4 * Nat.pow 2 (-x.exponent).toNat
    closed := m % 2 = 0 }

namespace Rounding

/-- Whether `num / den` lies in the interval `[low, high] / den`. -/
def contains (r : Rounding) (num : Nat) : Bool :=
  if r.closed then r.low ≤ num && num ≤ r.high else r.low < num && num < r.high

/-- The same interval in units of `10 ^ exponent`. -/
def scale (r : Rounding) (exponent : Int) : Rounding :=
  let up := Nat.pow 10 (-exponent).toNat
  { r with
    low := r.low * up
    value := r.value * up
    high := r.high * up
    den := r.den * Nat.pow 10 exponent.toNat }

/-- The integer of the interval that is nearest to the number, if there is one. -/
def nearestInteger? (r : Rounding) : Option Nat :=
  let d := r.value / r.den
  match r.contains (d * r.den), r.contains ((d + 1) * r.den) with
  | true, true =>
    let down := r.value - d * r.den
    let up := (d + 1) * r.den - r.value
    some (if down < up ∨ (down = up ∧ d % 2 = 0) then d else d + 1)
  | true, false => some d
  | false, true => some (d + 1)
  | false, false => none

/-- Try the grids `10 ^ exponent`, `10 ^ (exponent - 1)`, …, `tries` of them. -/
def search (r : Rounding) (exponent : Int) : Nat → Option Decimal
  | 0 => none
  | tries + 1 =>
    match (r.scale exponent).nearestInteger? with
    | some d => some ⟨d, exponent⟩
    | none => search r (exponent - 1) tries

end Rounding

/-- A power of ten no larger than a positive quotient, from its binary logarithm; it is the
largest or the one below. -/
def decimalMagnitude (num den : Nat) : Int :=
  let guess := (floorLog2 num den * 30103) / 100000
  if den * Nat.pow 10 (guess + 1).toNat ≤ num * Nat.pow 10 (-(guess + 1)).toNat then guess + 1
  else if den * Nat.pow 10 guess.toNat ≤ num * Nat.pow 10 (-guess).toNat then guess
  else guess - 1

/-- The shortest decimal that reads back as the finite number. -/
def shortest (x : Floating f) : Decimal :=
  if x.significand = 0 then ⟨0, 0⟩
  else
    let r := rounding x
    match r.search (decimalMagnitude r.value r.den) (f.precision + 2) with
    | some d => d.strip (f.precision + 2)
    | none => ⟨x.significand, 0⟩

end Floating

end PlatformProxy
