import Mathlib.Algebra.Order.Field.Power
import Mathlib.Data.Nat.Log
import Mathlib.Data.Rat.Cast.Order
import Mathlib.Tactic.FieldSimp
import Mathlib.Tactic.Linarith
import Mathlib.Tactic.NormNum
import Mathlib.Tactic.Positivity
import Mathlib.Tactic.Ring
import PlatformProxy.Floating.Basic

/-!
# How far a rounded number is off

The magnitude of a double is a rational number, and rounding a quotient changes it by no more than
half of a last place. What follows is only what is needed to see that arithmetic does not overflow:
a quotient that is below the largest doubles is rounded to one of them, and the rounded number is
not much larger than the quotient.

## Main definitions

* `Floating.value` — the magnitude of a finite number
* `Floating.roundedPlaces` — a quotient in places of some exponent
* `Floating.overflow` — quotients from here on are rounded to an infinity

## Main results

* `Floating.isFinite_ofRatio` — quotients below that are rounded to finite numbers
* `Floating.value_ofRatio_le`, `Floating.value_ofRatio_le_of_one_le` — by how much the rounded
  number is larger
* `Floating.isFinite_convert` — a single is widened to a finite double if it is finite itself
-/

namespace PlatformProxy

namespace Floating

/-! ### Powers -/

/-- The two powers in a quotient that is kept as natural numbers. -/
theorem zpow_eq_div (b : ℚ) (e : ℤ) :
    b ^ e = b ^ e.toNat / b ^ (-e).toNat := by
  rcases le_total 0 e with h | h
  · rw [Int.toNat_eq_zero.mpr (neg_nonpos.mpr h), pow_zero, div_one, ← zpow_natCast,
      Int.toNat_of_nonneg h]
  · rw [Int.toNat_eq_zero.mpr h, pow_zero, one_div, ← zpow_natCast,
      Int.toNat_of_nonneg (neg_nonneg.mpr h), zpow_neg, inv_inv]

theorem two_pow_mul_zpow (n : Nat) (e : ℤ) : ((2 ^ n : Nat) : ℚ) * 2 ^ e = 2 ^ (n + e) := by
  rw [Nat.cast_pow, Nat.cast_ofNat, ← zpow_natCast, ← zpow_add₀ two_ne_zero]

/-- The magnitude of a finite number. -/
def value {f : Format} (x : Floating f) : ℚ := x.numerator / x.denominator

theorem value_eq {f : Format} (x : Floating f) : x.value = x.significand * 2 ^ x.exponent := by
  rw [value, numerator, denominator, zpow_eq_div]
  push_cast [Nat.pow_eq]
  rw [mul_div_assoc]

theorem denominator_pos {f : Format} (x : Floating f) : 0 < x.denominator :=
  Nat.pow_pos (by decide)

/-! ### Rounding to an integer -/

theorem div_le_roundHalfEven (num den : Nat) : num / den ≤ roundHalfEven num den := by
  rw [roundHalfEven]
  split
  · exact Nat.le_succ _
  · exact Nat.le_refl _

theorem roundHalfEven_le {num den : Nat} (hden : 0 < den) :
    (roundHalfEven num den : ℚ) ≤ num / den + 1 / 2 := by
  have hbound : 2 * (den * roundHalfEven num den) ≤ 2 * num + den := by
    have hdiv := Nat.div_add_mod num den
    rw [roundHalfEven]
    split
    · rename_i hup
      rw [Nat.mul_add, Nat.mul_one]
      omega
    · omega
  have hbound' : 2 * ((den : ℚ) * roundHalfEven num den) ≤ 2 * num + den := by exact_mod_cast hbound
  have hden' : (0 : ℚ) < den := by exact_mod_cast hden
  rw [div_add' _ _ _ hden'.ne', le_div_iff₀ hden']
  linarith

/-! ### Binary logarithms -/

theorem le_ratio_iff {num den : Nat} (hden : 0 < den) (e : ℤ) :
    den * Nat.pow 2 e.toNat ≤ num * Nat.pow 2 (-e).toNat ↔ (2 : ℚ) ^ e ≤ num / den := by
  have hden' : (0 : ℚ) < den := by exact_mod_cast hden
  rw [zpow_eq_div, div_le_div_iff₀ (by positivity) hden', mul_comm ((2 : ℚ) ^ e.toNat)]
  exact_mod_cast Iff.rfl

theorem floorLog2_bounds {num den : Nat} (hnum : 0 < num) (hden : 0 < den) :
    (2 : ℚ) ^ floorLog2 num den ≤ num / den ∧ (num : ℚ) / den < 2 ^ (floorLog2 num den + 1) := by
  have hden' : (0 : ℚ) < den := by exact_mod_cast hden
  have hnumLow : (2 : ℚ) ^ (num.log2 : ℤ) ≤ num := by
    rw [zpow_natCast]
    exact_mod_cast Nat.log2_self_le hnum.ne'
  have hnumHigh : (num : ℚ) < 2 ^ (num.log2 + 1 : ℤ) := by
    exact_mod_cast Nat.lt_log2_self
  have hdenLow : (2 : ℚ) ^ (den.log2 : ℤ) ≤ den := by
    rw [zpow_natCast]
    exact_mod_cast Nat.log2_self_le hden.ne'
  have hdenHigh : (den : ℚ) < 2 ^ (den.log2 + 1 : ℤ) := by
    exact_mod_cast Nat.lt_log2_self
  rw [floorLog2]
  split <;> rename_i hle <;> rw [le_ratio_iff hden] at hle
  · refine ⟨hle, ?_⟩
    rw [div_lt_iff₀ hden']
    calc (num : ℚ) < 2 ^ (num.log2 + 1 : ℤ) := hnumHigh
      _ = 2 ^ ((num.log2 : ℤ) - den.log2 + 1) * 2 ^ (den.log2 : ℤ) := by
        rw [← zpow_add₀ two_ne_zero]
        congr 1
        ring
      _ ≤ 2 ^ ((num.log2 : ℤ) - den.log2 + 1) * den := by gcongr
  · refine ⟨?_, by rw [sub_add_cancel]; exact not_le.mp hle⟩
    rw [le_div_iff₀ hden']
    calc (2 : ℚ) ^ ((num.log2 : ℤ) - den.log2 - 1) * den
        ≤ 2 ^ ((num.log2 : ℤ) - den.log2 - 1) * 2 ^ (den.log2 + 1 : ℤ) := by gcongr
      _ = 2 ^ (num.log2 : ℤ) := by
        rw [← zpow_add₀ two_ne_zero]
        congr 1
        ring
      _ ≤ num := hnumLow

/-! ### Numbers of given bits -/

/-- Magnitudes below this are those of finite numbers. -/
def finiteBound : Nat := 2047 * 2 ^ 52

theorem toNat_ofMagnitude {magnitude : Nat} (h : magnitude < 2 ^ 63) (negative : Bool) :
    (ofMagnitude .double negative magnitude).bits.toNat =
      magnitude + if negative then 2 ^ 63 else 0 := by
  show (magnitude + if negative then 2 ^ 63 else 0) % 2 ^ 64 = _
  refine Nat.mod_eq_of_lt ?_
  split <;> omega

theorem storedExponent_ofMagnitude {magnitude : Nat} (h : magnitude < 2 ^ 63) (negative : Bool) :
    (ofMagnitude .double negative magnitude).storedExponent = magnitude / 2 ^ 52 := by
  show (ofMagnitude .double negative magnitude).bits.toNat / 2 ^ 52 % 2 ^ 11 = _
  rw [toNat_ofMagnitude h]
  split <;> omega

theorem fraction_ofMagnitude {magnitude : Nat} (h : magnitude < 2 ^ 63) (negative : Bool) :
    (ofMagnitude .double negative magnitude).fraction = magnitude % 2 ^ 52 := by
  show (ofMagnitude .double negative magnitude).bits.toNat % 2 ^ 52 = _
  rw [toNat_ofMagnitude h]
  split <;> omega

theorem isFinite_ofMagnitude {magnitude : Nat} (h : magnitude < finiteBound) (negative : Bool) :
    (ofMagnitude .double negative magnitude).isFinite = true := by
  have hbound : magnitude < 2047 * 2 ^ 52 := h
  rw [isFinite, storedExponent_ofMagnitude (by omega), decide_eq_true_eq]
  show magnitude / 2 ^ 52 ≠ 2047
  omega

/-- The place of a significand, which may have grown into the next binade. -/
theorem value_ofMagnitude {k m : Nat} (hm : m ≤ 2 ^ 53) (hk : k = 0 ∨ 2 ^ 52 ≤ m)
    (h : k * 2 ^ 52 + m < finiteBound) (negative : Bool) :
    (ofMagnitude .double negative (k * 2 ^ 52 + m)).value = m * 2 ^ (k - 1074 : ℤ) := by
  have hbound : k * 2 ^ 52 + m < 2047 * 2 ^ 52 := h
  have hlt : k * 2 ^ 52 + m < 2 ^ 63 := by omega
  have hmin : Format.double.minExponent = -1074 := by decide
  have hfraction : Nat.pow 2 Format.double.fractionBits = 2 ^ 52 := rfl
  rw [value_eq, significand, exponent, storedExponent_ofMagnitude hlt, fraction_ofMagnitude hlt,
    hmin, hfraction]
  rcases Nat.lt_or_ge m (2 ^ 52) with hsmall | hlarge
  · obtain rfl : k = 0 := hk.resolve_right (Nat.not_le.mpr hsmall)
    have hstored : (0 * 2 ^ 52 + m) / 2 ^ 52 = 0 := by omega
    have hplaces : (0 * 2 ^ 52 + m) % 2 ^ 52 = m := by omega
    rw [hstored, hplaces, if_pos rfl]
    norm_num
  · rcases Nat.lt_or_ge m (2 ^ 53) with hsame | hnext
    · have hstored : (k * 2 ^ 52 + m) / 2 ^ 52 = k + 1 := by omega
      have hplaces : 2 ^ 52 + (k * 2 ^ 52 + m) % 2 ^ 52 = m := by omega
      rw [hstored, hplaces, if_neg (Nat.succ_ne_zero k), Nat.add_sub_cancel, neg_add_eq_sub]
    · obtain rfl : m = 2 ^ 53 := Nat.le_antisymm hm hnext
      have hstored : (k * 2 ^ 52 + 2 ^ 53) / 2 ^ 52 = k + 2 := by omega
      have hplaces : (k * 2 ^ 52 + 2 ^ 53) % 2 ^ 52 = 0 := by omega
      have hexponent : (-1074 + ((k + 2 - 1 : Nat) : ℤ)) = (k - 1074) + 1 := by
        push_cast [Nat.add_sub_cancel]
        omega
      rw [hstored, hplaces, if_neg (Nat.succ_ne_zero _), hexponent, zpow_add_one₀ two_ne_zero]
      push_cast
      ring

/-! ### Places of a quotient -/

/-- A quotient as a whole number of places of an exponent. -/
def roundedPlaces (num den : Nat) (q : ℤ) : Nat :=
  roundHalfEven (num * Nat.pow 2 (-q).toNat) (den * Nat.pow 2 q.toNat)

section Places

variable {num den : Nat} {q : ℤ} {n : Nat}

theorem places_eq (num den : Nat) (q : ℤ) :
    ((num * Nat.pow 2 (-q).toNat : Nat) : ℚ) / (den * Nat.pow 2 q.toNat : Nat) =
      num / den / 2 ^ q := by
  rw [zpow_eq_div]
  push_cast [Nat.pow_eq]
  rw [div_div_eq_mul_div, div_mul_eq_mul_div, div_div]

theorem places_pos (hden : 0 < den) (q : ℤ) : 0 < den * Nat.pow 2 q.toNat :=
  Nat.mul_pos hden (Nat.pow_pos (by decide))

theorem roundedPlaces_le (num : Nat) (hden : 0 < den) (q : ℤ) :
    (roundedPlaces num den q : ℚ) ≤ num / den / 2 ^ q + 1 / 2 := by
  rw [← places_eq]
  exact roundHalfEven_le (places_pos hden q)

theorem le_roundedPlaces (hden : 0 < den) (h : (n : ℚ) ≤ num / den / 2 ^ q) :
    n ≤ roundedPlaces num den q := by
  have hpos := places_pos hden q
  rw [← places_eq, le_div_iff₀ (by exact_mod_cast hpos)] at h
  refine Nat.le_trans ?_ (div_le_roundHalfEven _ _)
  rw [Nat.le_div_iff_mul_le hpos]
  exact_mod_cast h

theorem roundedPlaces_le_of_lt (hden : 0 < den) (h : (num : ℚ) / den / 2 ^ q < n) :
    roundedPlaces num den q ≤ n := by
  have hround := roundedPlaces_le num hden q
  have hlt : (roundedPlaces num den q : ℚ) < (n + 1 : Nat) := by
    push_cast
    linarith
  exact Nat.lt_succ_iff.mp (by exact_mod_cast hlt)

theorem roundedPlaces_lt_of_lt (hden : 0 < den) (h : (num : ℚ) / den / 2 ^ q < n - 1 / 2) :
    roundedPlaces num den q < n := by
  have hround := roundedPlaces_le num hden q
  have hlt : (roundedPlaces num den q : ℚ) < n := by linarith
  exact_mod_cast hlt

end Places

/-! ### Rounding a quotient -/

/-- Quotients from here on are rounded to an infinity. -/
def overflow : ℚ := 2 ^ 1024 - 2 ^ 970

/-- Counted in last places of the largest numbers, this is half a place short of the next
binade. -/
theorem overflow_places : overflow / 2 ^ (971 : ℤ) = (2 ^ 53 : Nat) - 1 / 2 := by
  have hpow : (2 : ℚ) ^ 1024 = 2 ^ 970 * 2 ^ 54 := by rw [← pow_add]
  rw [overflow, hpow, show (971 : ℤ) = (970 : ℕ) + 1 by norm_num, zpow_add_one₀ two_ne_zero,
    zpow_natCast, Nat.cast_pow, Nat.cast_ofNat]
  field_simp

theorem floorLog2_lt {num den : Nat} (hnum : 0 < num) (hden : 0 < den)
    (hlt : (num : ℚ) / den < overflow) : floorLog2 num den < 1024 := by
  by_contra hge
  have hpow : (2 : ℚ) ^ (1024 : ℤ) ≤ 2 ^ floorLog2 num den :=
    zpow_le_zpow_right₀ one_le_two (not_lt.mp hge)
  have hsmaller : overflow < 2 ^ (1024 : ℤ) := by norm_num [overflow]
  have hlow := (floorLog2_bounds hnum hden).1
  linarith

theorem magnitudeOfRatio_eq {num den k : Nat}
    (hk : max (-1074) (floorLog2 num den - 52) = (k - 1074 : ℤ)) :
    magnitudeOfRatio .double num den =
      min (k * 2 ^ 52 + roundedPlaces num den (k - 1074)) finiteBound := by
  have hmin : Format.double.minExponent = -1074 := by decide
  have hfraction : (Format.double.fractionBits : ℤ) = 52 := by decide
  have hplace : ((k - 1074 : ℤ) - -1074).toNat = k := by omega
  rw [magnitudeOfRatio, hmin, hfraction, hk]
  show min (((k - 1074 : ℤ) - -1074).toNat * 2 ^ 52 + roundedPlaces num den (k - 1074)) finiteBound
    = _
  rw [hplace]

/-- The last place of a quotient, as the binary logarithm gives it. -/
theorem exists_place {num den : Nat} (hnum : 0 < num) (hden : 0 < den)
    (hlt : (num : ℚ) / den < overflow) :
    ∃ k : Nat, k ≤ 2045 ∧ max (-1074) (floorLog2 num den - 52) = (k - 1074 : ℤ) ∧
      (num : ℚ) / den < 2 ^ (k - 1021 : ℤ) ∧ (k = 0 ∨ (2 : ℚ) ^ (k - 1022 : ℤ) ≤ num / den) := by
  obtain ⟨hlow, hhigh⟩ := floorLog2_bounds hnum hden
  have hlog := floorLog2_lt hnum hden hlt
  obtain ⟨k, hk⟩ : ∃ k : Nat, max (-1074) (floorLog2 num den - 52) = (k - 1074 : ℤ) :=
    ⟨(max (-1074) (floorLog2 num den - 52) + 1074).toNat, by omega⟩
  refine ⟨k, by omega, hk, hhigh.trans_le (zpow_le_zpow_right₀ one_le_two (by omega)), ?_⟩
  rcases Nat.eq_zero_or_pos k with hzero | hpos
  · exact .inl hzero
  · have hexponent : floorLog2 num den = k - 1022 := by omega
    exact .inr (hexponent ▸ hlow)

section LastPlace

variable {num den k : Nat} (hden : 0 < den)
include hden

theorem lastPlaces_le (h : (num : ℚ) / den < 2 ^ (k - 1021 : ℤ)) :
    roundedPlaces num den (k - 1074) ≤ 2 ^ 53 := by
  refine roundedPlaces_le_of_lt hden ?_
  rw [div_lt_iff₀ (zpow_pos two_pos _), two_pow_mul_zpow]
  exact h.trans_eq (congrArg _ (by push_cast; ring))

theorem le_lastPlaces (h : (2 : ℚ) ^ (k - 1022 : ℤ) ≤ num / den) :
    2 ^ 52 ≤ roundedPlaces num den (k - 1074) := by
  refine le_roundedPlaces hden ?_
  rw [le_div_iff₀ (zpow_pos two_pos _), two_pow_mul_zpow]
  exact (congrArg _ (by push_cast; ring)).trans_le h

/-- In the last binade the rounded quotient stays below the next one. -/
theorem lastPlaces_lt (h : (num : ℚ) / den < overflow) :
    roundedPlaces num den 971 < 2 ^ 53 := by
  refine roundedPlaces_lt_of_lt hden ?_
  rw [← overflow_places]
  exact div_lt_div_of_pos_right h (zpow_pos two_pos _)

/-- The rounded quotient is off by half of the last place. -/
theorem lastPlaces_mul_le :
    (roundedPlaces num den (k - 1074) : ℚ) * 2 ^ (k - 1074 : ℤ) ≤
      num / den + 2 ^ (k - 1075 : ℤ) := by
  have hplace : (0 : ℚ) < 2 ^ (k - 1074 : ℤ) := zpow_pos two_pos _
  have hhalf : (2 : ℚ) ^ (k - 1074 : ℤ) = 2 ^ (k - 1075 : ℤ) * 2 := by
    rw [← zpow_add_one₀ two_ne_zero]
    congr 1
    ring
  calc (roundedPlaces num den (k - 1074) : ℚ) * 2 ^ (k - 1074 : ℤ)
      ≤ (num / den / 2 ^ (k - 1074 : ℤ) + 1 / 2) * 2 ^ (k - 1074 : ℤ) := by
        gcongr
        exact roundedPlaces_le num hden _
    _ = num / den + 2 ^ (k - 1075 : ℤ) := by
      rw [add_mul, div_mul_cancel₀ _ hplace.ne', hhalf]
      ring

end LastPlace

/-- What rounding a quotient comes to: the exponent of the last place, and how often the quotient
has that place. -/
theorem exists_ofRatio {num den : Nat} (hnum : 0 < num) (hden : 0 < den)
    (hlt : (num : ℚ) / den < overflow) :
    ∃ (k m : Nat), m ≤ 2 ^ 53 ∧ (k = 0 ∨ 2 ^ 52 ≤ m) ∧ k * 2 ^ 52 + m < finiteBound ∧
      (∀ negative, ofRatio .double negative num den =
        ofMagnitude .double negative (k * 2 ^ 52 + m)) ∧
      (m : ℚ) * 2 ^ (k - 1074 : ℤ) ≤ num / den + 2 ^ (k - 1075 : ℤ) ∧
      (num : ℚ) / den < 2 ^ (k - 1021 : ℤ) ∧ (k = 0 ∨ (2 : ℚ) ^ (k - 1022 : ℤ) ≤ num / den) := by
  obtain ⟨k, hle, hk, hupper, hnormal⟩ := exists_place hnum hden hlt
  have hmle := lastPlaces_le hden hupper
  have hmge := hnormal.imp_right (le_lastPlaces hden)
  have hfinite : k * 2 ^ 52 + roundedPlaces num den (k - 1074) < finiteBound := by
    show k * 2 ^ 52 + roundedPlaces num den (k - 1074) < 2047 * 2 ^ 52
    rcases Nat.lt_or_ge k 2045 with hsmall | hlarge
    · omega
    · obtain rfl : k = 2045 := Nat.le_antisymm hle hlarge
      have hplace : ((2045 : Nat) - 1074 : ℤ) = 971 := by norm_num
      have hless := lastPlaces_lt hden hlt
      rw [hplace]
      omega
  refine ⟨k, _, hmle, hmge, hfinite, fun negative => ?_, lastPlaces_mul_le hden, hupper, hnormal⟩
  rw [ofRatio, if_neg hnum.ne', magnitudeOfRatio_eq hk, Nat.min_eq_left (Nat.le_of_lt hfinite)]

theorem isFinite_ofRatio {num den : Nat} (hden : 0 < den) (hlt : (num : ℚ) / den < overflow)
    (negative : Bool) : (ofRatio .double negative num den).isFinite = true := by
  rcases Nat.eq_zero_or_pos num with rfl | hnum
  · rw [ofRatio, if_pos rfl]
    exact isFinite_ofMagnitude (by decide) negative
  · obtain ⟨k, m, -, -, hfinite, hof, -⟩ := exists_ofRatio hnum hden hlt
    rw [hof]
    exact isFinite_ofMagnitude hfinite negative

theorem value_ofMagnitude_zero (negative : Bool) : (ofMagnitude .double negative 0).value = 0 := by
  have hzero := value_ofMagnitude (Nat.zero_le (2 ^ 53)) (.inl rfl) (by decide) negative
  exact hzero.trans (by rw [Nat.cast_zero, zero_mul])

theorem value_nonneg {f : Format} (x : Floating f) : 0 ≤ x.value :=
  div_nonneg (Nat.cast_nonneg _) (Nat.cast_nonneg _)

/-- Half of the last place of a number is a small share of it. -/
theorem place_le {k : Nat} {r : ℚ} (h : (2 : ℚ) ^ (k - 1022 : ℤ) ≤ r) :
    (2 : ℚ) ^ (k - 1075 : ℤ) ≤ r * 2 ^ (-53 : ℤ) :=
  calc (2 : ℚ) ^ (k - 1075 : ℤ) = 2 ^ (k - 1022 : ℤ) * 2 ^ (-53 : ℤ) := by
        rw [← zpow_add₀ two_ne_zero]
        congr 1
        ring
    _ ≤ r * 2 ^ (-53 : ℤ) := by gcongr

theorem pos_of_one_le_div {num den : Nat} (h : 1 ≤ (num : ℚ) / den) : 0 < num := by
  refine Nat.pos_of_ne_zero ?_
  rintro rfl
  rw [Nat.cast_zero, zero_div] at h
  exact absurd h (by norm_num)

section Value

variable {num den : Nat} (hden : 0 < den) (hlt : (num : ℚ) / den < overflow) (negative : Bool)
include hden hlt

/-- A rounded quotient is not much larger, and never by much more than the smallest numbers. -/
theorem value_ofRatio_le : (ofRatio .double negative num den).value ≤
    num / den * (1 + 2 ^ (-53 : ℤ)) + 2 ^ (-1075 : ℤ) := by
  rcases Nat.eq_zero_or_pos num with rfl | hnum
  · rw [ofRatio, if_pos rfl, value_ofMagnitude_zero]
    positivity
  · obtain ⟨k, m, hm, hk, hfinite, hof, hvalue, -, hnormal⟩ := exists_ofRatio hnum hden hlt
    rw [hof, value_ofMagnitude hm hk hfinite, mul_add, mul_one, add_assoc]
    refine hvalue.trans (add_le_add_right ?_ _)
    rcases hnormal with rfl | hlow
    · exact le_add_of_nonneg_left (by positivity)
    · exact le_add_of_le_of_nonneg (place_le hlow) (by positivity)

section One

variable (hone : 1 ≤ (num : ℚ) / den)
include hone

theorem value_ofRatio_le_of_one_le :
    (ofRatio .double negative num den).value ≤ num / den * (1 + 2 ^ (-53 : ℤ)) := by
  obtain ⟨k, m, hm, hk, hfinite, hof, hvalue, -, hnormal⟩ :=
    exists_ofRatio (pos_of_one_le_div hone) hden hlt
  rw [hof, value_ofMagnitude hm hk hfinite, mul_add, mul_one]
  refine hvalue.trans (add_le_add_right (place_le ?_) _)
  rcases hnormal with rfl | hlow
  · exact le_trans (zpow_le_one_of_nonpos₀ one_le_two (by norm_num)) hone
  · exact hlow

/-- More than half of a quotient is left. -/
theorem lt_value_ofRatio :
    (num : ℚ) / den / 2 < (ofRatio .double negative num den).value := by
  obtain ⟨k, m, hm, hk, hfinite, hof, -, hupper, -⟩ :=
    exists_ofRatio (pos_of_one_le_div hone) hden hlt
  rw [hof, value_ofMagnitude hm hk hfinite]
  rcases hk with rfl | hk
  · -- Quotients in the lowest binade are less than one.
    have hless : (2 : ℚ) ^ (((0 : Nat) : ℤ) - 1021) ≤ 1 :=
      zpow_le_one_of_nonpos₀ one_le_two (by norm_num)
    exact absurd (hone.trans_lt hupper) (not_lt.mpr hless)
  · have hm' : (2 : ℚ) ^ 52 ≤ m := by exact_mod_cast hk
    calc (num : ℚ) / den / 2 < 2 ^ (k - 1021 : ℤ) / 2 := by gcongr
      _ = 2 ^ 52 * 2 ^ (k - 1074 : ℤ) := by
        rw [div_eq_iff two_ne_zero, ← zpow_natCast, ← zpow_add₀ two_ne_zero,
          ← zpow_add_one₀ two_ne_zero]
        congr 1
        push_cast
        ring
      _ ≤ m * 2 ^ (k - 1074 : ℤ) := by gcongr

end One

end Value

/-! ### Arithmetic -/

section OfNat

variable {n : Nat} (hlt : (n : ℚ) < overflow)
include hlt

theorem isFinite_ofNat : (ofNat .double n).isFinite = true :=
  isFinite_ofRatio Nat.one_pos (by rwa [Nat.cast_one, div_one]) false

theorem value_ofNat_le (hone : 1 ≤ n) :
    (ofNat .double n).value ≤ n * (1 + 2 ^ (-53 : ℤ)) := by
  have hratio : (n : ℚ) / (1 : Nat) = n := by rw [Nat.cast_one, div_one]
  have hle := value_ofRatio_le_of_one_le Nat.one_pos (hratio.symm ▸ hlt) false
    (hratio.symm ▸ by exact_mod_cast hone)
  rwa [hratio] at hle

theorem lt_value_ofNat (hone : 1 ≤ n) : (n : ℚ) / 2 < (ofNat .double n).value := by
  have hratio : (n : ℚ) / (1 : Nat) = n := by rw [Nat.cast_one, div_one]
  have hless := lt_value_ofRatio Nat.one_pos (hratio.symm ▸ hlt) false
    (hratio.symm ▸ by exact_mod_cast hone)
  rwa [hratio] at hless

end OfNat

section Operations

variable {x y : Floating .double} (hx : x.isFinite = true) (hy : y.isFinite = true)

theorem isNaN_eq_false {f : Format} {x : Floating f} (hx : x.isFinite = true) :
    x.isNaN = false := by
  rw [isNaN, hx]
  rfl

theorem isZero_iff_value {f : Format} {x : Floating f} (hx : x.isFinite = true) :
    x.isZero = true ↔ x.value = 0 := by
  have hpow : (2 : ℚ) ^ x.exponent ≠ 0 := (zpow_pos two_pos _).ne'
  rw [isZero, hx, value_eq]
  simp [hpow]

include hx hy

theorem mul_eq : x.mul y = ofRatio .double (x.negative != y.negative)
    (x.numerator * y.numerator) (x.denominator * y.denominator) := by
  simp only [mul, isNaN_eq_false hx, isNaN_eq_false hy, hx, hy]
  rfl

theorem isFinite_mul (h : x.value * y.value < overflow) : (x.mul y).isFinite = true := by
  rw [mul_eq hx hy]
  refine isFinite_ofRatio (Nat.mul_pos x.denominator_pos y.denominator_pos) ?_ _
  rw [Nat.cast_mul, Nat.cast_mul, ← div_mul_div_comm]
  exact h

theorem div_eq (h : 0 < y.value) : x.div y = ofRatio .double (x.negative != y.negative)
    (x.numerator * y.denominator) (x.denominator * y.numerator) := by
  have hzero : y.isZero = false := by
    rw [← Bool.not_eq_true, isZero_iff_value hy]
    exact h.ne'
  simp only [div, isNaN_eq_false hx, isNaN_eq_false hy, hx, hy, hzero]
  rfl

omit hx hy in
theorem div_ratio :
    ((x.numerator * y.denominator : Nat) : ℚ) / (x.denominator * y.numerator : Nat) =
    x.value / y.value := by
  rw [value, value, div_div_div_eq, Nat.cast_mul, Nat.cast_mul]

omit hx hy in
theorem denominator_mul_numerator_pos (hpos : 0 < y.value) :
    0 < x.denominator * y.numerator := by
  refine Nat.mul_pos x.denominator_pos (Nat.pos_of_ne_zero fun hzero => ?_)
  rw [value, hzero, Nat.cast_zero, zero_div] at hpos
  exact lt_irrefl _ hpos

theorem isFinite_div (hpos : 0 < y.value) (h : x.value / y.value < overflow) :
    (x.div y).isFinite = true := by
  rw [div_eq hx hy hpos]
  exact isFinite_ofRatio (denominator_mul_numerator_pos hpos) (div_ratio.symm ▸ h) _

theorem value_div_le (hpos : 0 < y.value) (h : x.value / y.value < overflow) :
    (x.div y).value ≤ x.value / y.value * (1 + 2 ^ (-53 : ℤ)) + 2 ^ (-1075 : ℤ) := by
  have hle := value_ofRatio_le (denominator_mul_numerator_pos hpos) (div_ratio.symm ▸ h)
    (x.negative != y.negative)
  rwa [div_ratio, ← div_eq hx hy hpos] at hle

end Operations

/-- The sign does not matter. -/
theorem isFinite_neg (x : Floating .double) : x.neg.isFinite = x.isFinite := by
  have hbits : x.neg.bits.toNat = x.bits.toNat ^^^ 2 ^ 63 := BitVec.toNat_xor _ _
  have hstored : x.neg.storedExponent = x.storedExponent := by
    show x.neg.bits.toNat / 2 ^ 52 % 2 ^ 11 = x.bits.toNat / 2 ^ 52 % 2 ^ 11
    rw [hbits, Nat.xor_div_two_pow, Nat.xor_mod_two_pow]
    exact Nat.xor_zero _
  rw [isFinite, isFinite, hstored]

/-! ### Widening -/

/-- Singles stay far below the largest doubles. -/
theorem value_lt_overflow (x : Floating .single) : x.value < overflow := by
  have hsignificand : x.significand < 2 ^ 24 := by
    have hfraction : x.fraction < 2 ^ 23 := Nat.mod_lt _ (by decide)
    have hunit : Nat.pow 2 Format.single.fractionBits = 2 ^ 23 := rfl
    rw [significand, hunit]
    split <;> omega
  have hexponent : x.exponent ≤ 105 := by
    have hstored : x.storedExponent < 2 ^ 8 := Nat.mod_lt _ (by decide)
    have hmin : Format.single.minExponent = -149 := by decide
    rw [exponent, hmin]
    omega
  have hsignificand' : (x.significand : ℚ) ≤ 2 ^ 24 := by exact_mod_cast hsignificand.le
  calc x.value = x.significand * 2 ^ x.exponent := value_eq x
    _ ≤ 2 ^ 24 * 2 ^ (105 : ℤ) := by
      have hpower : (2 : ℚ) ^ x.exponent ≤ 2 ^ (105 : ℤ) := zpow_le_zpow_right₀ one_le_two hexponent
      gcongr
    _ < overflow := by
      have hnat : 2 ^ 24 * 2 ^ 105 + 2 ^ 970 < 2 ^ 1024 := by decide +kernel
      rw [overflow, lt_sub_iff_add_lt]
      exact_mod_cast hnat

/-- **A single is widened to a finite double** if and only if it is finite. -/
theorem isFinite_convert (x : Floating .single) : (x.convert .double).isFinite = x.isFinite := by
  cases hx : x.isFinite with
  | true =>
    rw [convert, isNaN_eq_false hx, hx, if_neg Bool.false_ne_true, if_pos rfl]
    exact isFinite_ofRatio x.denominator_pos x.value_lt_overflow _
  | false =>
    rw [convert, hx, if_neg Bool.false_ne_true]
    split
    · decide
    · cases x.negative <;> decide

end Floating

end PlatformProxy
