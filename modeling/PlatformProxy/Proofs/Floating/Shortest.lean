import PlatformProxy.Floating.Shortest
import PlatformProxy.Proofs.Floating.Rounding

/-!
# How large the shortest decimal is

The decimal that is written for a number lies in the interval of the reals that round to it, so it
is at most half of a last place above the number.

## Main definitions

* `Floating.Decimal.value` — a decimal as a rational number

## Main results

* `Floating.shortest_cases` — the decimal is not zero and not above the interval
-/

namespace PlatformProxy

namespace Floating

namespace Decimal

def value (d : Decimal) : ℚ := d.digits * 10 ^ d.exponent

theorem value_strip (limit : Nat) (d : Decimal) : (d.strip limit).value = d.value := by
  induction limit generalizing d with
  | zero => rfl
  | succ limit ih =>
    rw [strip]
    split
    · rename_i hten
      have hdigits : (d.digits : ℚ) = (d.digits / 10 : Nat) * 10 := by
        exact_mod_cast (Nat.div_mul_cancel (Nat.dvd_of_mod_eq_zero hten.2)).symm
      rw [ih, value, value, hdigits, zpow_add_one₀ (by norm_num)]
      ring
    · rfl

theorem digits_strip_pos (limit : Nat) {d : Decimal} (h : 0 < d.digits) :
    0 < (d.strip limit).digits := by
  induction limit generalizing d with
  | zero => exact h
  | succ limit ih =>
    rw [strip]
    split
    · rename_i hten
      refine ih (d := ⟨d.digits / 10, d.exponent + 1⟩) ?_
      show 0 < d.digits / 10
      omega
    · exact h

end Decimal

namespace Rounding

variable {r : Rounding}

theorem contains_bounds {n : Nat} (h : r.contains n = true) : r.low ≤ n ∧ n ≤ r.high := by
  rw [contains] at h
  split at h
  · simpa using h
  · simp only [Bool.and_eq_true, decide_eq_true_eq] at h
    omega

theorem contains_nearestInteger? {d : Nat} (h : r.nearestInteger? = some d) :
    r.contains (d * r.den) = true := by
  rw [nearestInteger?] at h
  split at h <;> rename_i hdown hup
  · obtain rfl := Option.some.inj h
    split
    · exact hdown
    · exact hup
  · obtain rfl := Option.some.inj h
    exact hdown
  · obtain rfl := Option.some.inj h
    exact hup
  · exact absurd h nofun

/-- What is found lies in the interval. -/
theorem search_bounds {e : ℤ} {tries : Nat} {d : Decimal} (h : r.search e tries = some d)
    (hlow : 0 < r.low) (hden : 0 < r.den) : 0 < d.digits ∧ d.value ≤ r.high / r.den := by
  induction tries generalizing e with
  | zero => exact absurd h nofun
  | succ tries ih =>
    rw [search] at h
    split at h
    · rename_i n hn
      obtain rfl := Option.some.inj h
      obtain ⟨hbelow, habove⟩ := contains_bounds (contains_nearestInteger? hn)
      have hpositive : 0 < n := by
        refine Nat.pos_of_ne_zero fun hzero => ?_
        rw [hzero, Nat.zero_mul] at hbelow
        exact absurd hbelow (Nat.not_le.mpr (Nat.mul_pos hlow (Nat.pow_pos (by decide))))
      have habove' : (n : ℚ) * (r.den * 10 ^ e.toNat) ≤ r.high * 10 ^ (-e).toNat := by
        exact_mod_cast habove
      refine ⟨hpositive, ?_⟩
      have hden' : (0 : ℚ) < r.den := by exact_mod_cast hden
      rw [Decimal.value, zpow_eq_div, mul_div_assoc', div_le_div_iff₀ (by positivity) hden']
      calc (n : ℚ) * 10 ^ e.toNat * r.den = n * (r.den * 10 ^ e.toNat) := by ring
        _ ≤ r.high * 10 ^ (-e).toNat := habove'
    · exact ih h

end Rounding

/-- The largest real in the interval of a number. -/
def upper (x : Floating .double) : ℚ := (x.significand + 1 / 2) * 2 ^ x.exponent

theorem high_rounding (x : Floating .double) :
    ((rounding x).high : ℚ) / (rounding x).den = x.upper := by
  rw [upper, zpow_eq_div]
  show (((4 * x.significand + 2) * 2 ^ x.exponent.toNat : Nat) : ℚ) /
    (4 * 2 ^ (-x.exponent).toNat : Nat) = _
  push_cast
  field_simp
  ring

theorem significand_lt (x : Floating .double) : x.significand < 2 ^ 53 := by
  have hfraction : x.fraction < 2 ^ 52 := Nat.mod_lt _ (by decide)
  have hunit : Nat.pow 2 Format.double.fractionBits = 2 ^ 52 := rfl
  rw [significand, hunit]
  split <;> omega

theorem exponent_le {x : Floating .double} (h : x.isFinite = true) : x.exponent ≤ 971 := by
  have hstored : x.storedExponent < 2 ^ 11 := Nat.mod_lt _ (by decide)
  have hfinite : x.storedExponent ≠ 2047 := of_decide_eq_true h
  have hmin : Format.double.minExponent = -1074 := by decide
  rw [exponent, hmin]
  omega

/-- The sign of a number does not matter. -/
theorem shortest_congr {x y : Floating .double} (hsignificand : x.significand = y.significand)
    (hexponent : x.exponent = y.exponent) : x.shortest = y.shortest := by
  simp only [shortest, rounding, hsignificand, hexponent]

/-- **The decimal of a number** is its significand, if nothing shorter has been found, or is not
above its interval. -/
theorem shortest_cases {x : Floating .double} (h : x.significand ≠ 0) :
    x.shortest = ⟨x.significand, 0⟩ ∨
      (0 < x.shortest.digits ∧ x.shortest.value ≤ x.upper) := by
  rw [shortest, if_neg h]
  dsimp only
  split
  · rename_i d hd
    have hlow : 0 < (rounding x).low := by
      refine Nat.mul_pos (Nat.sub_pos_of_lt ?_) (Nat.pow_pos (by decide))
      split <;> omega
    have hden : 0 < (rounding x).den := Nat.mul_pos (by decide) (Nat.pow_pos (by decide))
    obtain ⟨hpositive, hvalue⟩ := Rounding.search_bounds hd hlow hden
    right
    rw [Decimal.value_strip, ← high_rounding]
    exact ⟨Decimal.digits_strip_pos _ hpositive, hvalue⟩
  · exact .inl rfl

end Floating

end PlatformProxy
