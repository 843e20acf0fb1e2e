import PlatformProxy.Json.Writer
import PlatformProxy.Proofs.Floating.Shortest
import PlatformProxy.Proofs.Json.Values

/-!
# Doubles can be read

A double is not always read as it was written, since the reader rounds twice. It is always read as
some double, though. Where the reader divides by a power of ten nothing can go wrong. Where it
multiplies, the product must not be out of range, and that could only happen to the very largest
numbers: everything below them leaves room for both roundings, and the last two are looked at one by
one.

The digits of a text that do not fit into 64 bits are dropped, which only makes the number smaller.

## Main definitions

* `Json.Scales` — a significand can be scaled by a power of ten
* `Json.IsScalable` — so can a decimal, however many of its digits are dropped
* `Json.ReadsParts` — a text is read as a significand and an exponent that can be scaled

## Main results

* `Json.scales_of_nonpos`, `Json.scales_of_le` — divisions, and products in range
* `Json.isScalable_shortest` — the decimals that are written
* `Json.reads_real` — a double is read as a number
-/

namespace PlatformProxy

namespace Json

open Floating (Decimal)

/-! ### Digits -/

theorem skipDigits_of_end {rest : Bytes} (h : startsWithDigit rest = false) :
    skipDigits rest = rest := by
  cases rest with
  | nil => rfl
  | cons b rest =>
    have hb : isDigit b = false := h
    rw [skipDigits, if_neg (ne_true_of_eq_false hb)]

theorem skipDigits_digits {s : List Char} (hs : ∀ c ∈ s, c.isDigit = true) {rest : Bytes}
    (hrest : startsWithDigit rest = false) : skipDigits (s.map byte ++ rest) = rest := by
  induction s with
  | nil => exact skipDigits_of_end hrest
  | cons c s ih =>
    obtain ⟨hc, hs⟩ := List.forall_mem_cons.mp hs
    rw [List.map_cons, List.cons_append, skipDigits, if_pos (isDigit_byte hc), ih hs]

/-- What is left of digits is dropped. -/
structure Taken (s : List Char) (n value count : Nat) : Prop where
  fits : value < UInt64.size
  count_le : count ≤ s.length
  le : value * 10 ^ (s.length - count) ≤ n
  exact : n < UInt64.size → value = n ∧ count = s.length

/-- Digits are taken as long as they fit into 64 bits. -/
theorem exists_readSignificand {s : List Char} (hs : ∀ c ∈ s, c.isDigit = true) {value n : Nat}
    (hfits : value < UInt64.size) (hvalue : Text.digitsValue value s = some n) :
    ∃ value' count, Taken s n value' count ∧
      ∀ (start : Nat) (rest : Bytes), startsWithDigit rest = false →
        readSignificand value start (s.map byte ++ rest) =
          (value', start + count, (s.drop count).map byte ++ rest) := by
  induction s generalizing value with
  | nil =>
    obtain rfl := Option.some.inj hvalue
    exact ⟨value, 0, ⟨hfits, Nat.le_refl _, by simp, fun _ => ⟨rfl, rfl⟩⟩,
      fun start rest hrest => readSignificand_of_end hrest value start⟩
  | cons c s ih =>
    obtain ⟨hc, hs⟩ := List.forall_mem_cons.mp hs
    have hvalue' := hvalue
    rw [Text.digitsValue, Option.bind_eq_some_iff] at hvalue'
    obtain ⟨d, hd, hvalue'⟩ := hvalue'
    have hread : ∀ (start : Nat) (rest : Bytes),
        readSignificand value start ((c :: s).map byte ++ rest) =
          if value * 10 + d < UInt64.size then
            readSignificand (value * 10 + d) (start + 1) (s.map byte ++ rest)
          else (value, start, (c :: s).map byte ++ rest) := by
      intro start rest
      rw [List.map_cons, List.cons_append, readSignificand,
        digit?_byte (toNat_lt_of_isDigit hc), hd]
    by_cases hnext : value * 10 + d < UInt64.size
    · obtain ⟨value', count, htaken, htail⟩ := ih hs hnext hvalue'
      refine ⟨value', count + 1, ⟨htaken.fits, Nat.succ_le_succ htaken.count_le, ?_, ?_⟩,
        fun start rest hrest => ?_⟩
      · rw [List.length_cons, Nat.add_sub_add_right]
        exact htaken.le
      · intro hn
        obtain ⟨hsame, hcount⟩ := htaken.exact hn
        exact ⟨hsame, by rw [hcount, List.length_cons]⟩
      · rw [hread, if_pos hnext, htail _ _ hrest, Nat.add_right_comm, Nat.add_assoc]
        rfl
    · refine ⟨value, 0, ⟨hfits, Nat.zero_le _, Text.mul_pow_le_of_digitsValue hvalue, fun hn => ?_⟩,
        fun start rest _ => ?_⟩
      · exact absurd (Nat.lt_of_le_of_lt (Text.le_of_digitsValue hvalue') hn) hnext
      · rw [hread, if_neg hnext]
        rfl

/-- **Places after the point.** -/
theorem exists_readPlaces {s : List Char} (hs : ∀ c ∈ s, c.isDigit = true) (hne : s ≠ [])
    {value n : Nat} (hfits : value < UInt64.size) (hvalue : Text.digitsValue value s = some n) :
    ∃ value' count, Taken s n value' count ∧
      ∀ (negative : Bool) (rest : Bytes), startsWithDigit rest = false →
        readPlaces negative value 0 (s.map byte ++ rest) =
          readRest negative value' (-(count : ℤ)) rest := by
  obtain ⟨value', count, htaken, hread⟩ := exists_readSignificand hs hfits hvalue
  refine ⟨value', count, htaken, fun negative rest hrest => ?_⟩
  have hdrop : ∀ c ∈ s.drop count, c.isDigit = true := fun c hc => hs c (List.mem_of_mem_drop hc)
  rw [readPlaces, hread 0 rest hrest, Nat.zero_add]
  dsimp only
  rw [zero_sub]
  cases hleft : s.drop count with
  | cons c left =>
    have hdigits := hleft ▸ hdrop
    have hstarts : startsWithDigit ((c :: left).map byte ++ rest) = true :=
      isDigit_byte (hdigits c List.mem_cons_self)
    rw [if_pos hstarts, skipDigits_digits hdigits hrest]
  | nil =>
    have hcount : count ≠ 0 := by
      rintro rfl
      exact hne hleft
    rw [List.map_nil, List.nil_append, if_neg (ne_true_of_eq_false hrest), if_neg hcount]

/-! ### Exponents -/

/-- The exponent letter and a sign. -/
def exponentChars (down : Bool) (n : Nat) : List Char :=
  'e' :: (if down then '-' else '+') :: Text.decimal n

theorem isAscii_exponentChars (down : Bool) (n : Nat) : isAscii (exponentChars down n) = true := by
  refine isAscii_cons.mpr ⟨by decide, isAscii_cons.mpr ⟨?_, ?_⟩⟩
  · cases down <;> decide
  · exact isAscii_of_digits fun c => Text.isDigit_of_mem_decimal

/-- A positive exponent within the limit. -/
theorem readExponentDigits_of_lt {s : List Char} (hs : ∀ c ∈ s, c.isDigit = true) {e n : Nat}
    (hvalue : Text.digitsValue e s = some n) (hn : n < exponentBound) (negative down : Bool)
    (significand : Nat) (start : ℤ) {rest : Bytes} (hrest : startsWithDigit rest = false) :
    readExponentDigits negative significand start down e (s.map byte ++ rest) =
      readParts negative significand (if down then start - n else start + n) rest := by
  induction s generalizing e with
  | nil =>
    obtain rfl := Option.some.inj hvalue
    cases rest with
    | nil => rfl
    | cons b rest =>
      have hnone : digit? b = none := Option.not_isSome_iff_eq_none.mp (ne_true_of_eq_false hrest)
      rw [List.map_nil, List.nil_append, readExponentDigits, hnone]
  | cons c s ih =>
    obtain ⟨hc, hs⟩ := List.forall_mem_cons.mp hs
    rw [Text.digitsValue, Option.bind_eq_some_iff] at hvalue
    obtain ⟨d, hd, hvalue⟩ := hvalue
    have hfits : e * 10 + d < exponentBound := Nat.lt_of_le_of_lt (Text.le_of_digitsValue hvalue) hn
    rw [List.map_cons, List.cons_append, readExponentDigits, digit?_byte (toNat_lt_of_isDigit hc),
      hd]
    dsimp only
    rw [if_pos hfits, ih hs hvalue]

/-- A negative exponent past the limit gives zero. -/
theorem readExponentDigits_of_le {s : List Char} (hs : ∀ c ∈ s, c.isDigit = true) {e n : Nat}
    (hvalue : Text.digitsValue e s = some n) (he : e < exponentBound) (hn : exponentBound ≤ n)
    (negative : Bool) (significand : Nat) (start : ℤ) {rest : Bytes}
    (hrest : startsWithDigit rest = false) :
    readExponentDigits negative significand start true e (s.map byte ++ rest) =
      readParts negative 0 0 rest := by
  induction s generalizing e with
  | nil =>
    obtain rfl := Option.some.inj hvalue
    exact absurd he (Nat.not_lt.mpr hn)
  | cons c s ih =>
    obtain ⟨hc, hs⟩ := List.forall_mem_cons.mp hs
    rw [Text.digitsValue, Option.bind_eq_some_iff] at hvalue
    obtain ⟨d, hd, hvalue⟩ := hvalue
    rw [List.map_cons, List.cons_append, readExponentDigits, digit?_byte (toNat_lt_of_isDigit hc),
      hd]
    dsimp only
    split
    · rename_i hfits
      exact ih hs hvalue hfits
    · rw [if_neg (by simp), skipDigits_digits hs hrest]

theorem readExponent_sign (negative down : Bool) (significand : Nat) (start : ℤ) {b : UInt8}
    {d : Nat} (hd : digit? b = some d) (input : Bytes) :
    readExponent negative significand start
        (byte (if down then '-' else '+') :: b :: input) =
      readExponentDigits negative significand start down d input := by
  have hsign : byte '-' ≠ byte '+' := by decide
  cases down <;> simp [readExponent, hsign, hd]

/-- The exponent letter with its sign and digits, after a significand. -/
theorem readRest_exponentChars (negative down : Bool) (significand : Nat) (start : ℤ) (n : Nat)
    (rest : Bytes) : ∃ s d, (∀ c ∈ s, c.isDigit = true) ∧ d < 10 ∧ Text.digitsValue d s = some n ∧
      readRest negative significand start ((exponentChars down n).map byte ++ rest) =
        readExponentDigits negative significand start down d (s.map byte ++ rest) := by
  obtain ⟨c, s, d, hdecimal, hd, -⟩ := decimal_eq_cons n
  have hdigits : ∀ c' ∈ Text.decimal n, c'.isDigit = true := fun c' => Text.isDigit_of_mem_decimal
  have hvalue := Text.digitsValue_decimal n
  rw [hdecimal] at hdigits hvalue
  rw [Text.digitsValue, hd, Option.bind_some, Nat.zero_mul, Nat.zero_add] at hvalue
  obtain ⟨hc, hs⟩ := List.forall_mem_cons.mp hdigits
  refine ⟨s, d, hs, Text.lt_of_digitValue? hd, hvalue, ?_⟩
  rw [exponentChars, hdecimal, List.map_cons, List.map_cons, List.map_cons, List.cons_append,
    List.cons_append, List.cons_append, readRest, if_pos (.inl rfl)]
  exact readExponent_sign negative down significand start
    ((digit?_byte (toNat_lt_of_isDigit hc)).trans hd) _

section Exponent

variable (negative : Bool) (significand : Nat) (start : ℤ) {n : Nat} {rest : Bytes}
  (hrest : startsWithDigit rest = false)
include hrest

theorem readRest_exponent (down : Bool) (hn : n < exponentBound) :
    readRest negative significand start ((exponentChars down n).map byte ++ rest) =
      readParts negative significand (if down then start - n else start + n) rest := by
  obtain ⟨s, d, hs, -, hvalue, hread⟩ :=
    readRest_exponentChars negative down significand start n rest
  rw [hread, readExponentDigits_of_lt hs hvalue hn _ _ _ _ hrest]

theorem readRest_longExponent (hn : exponentBound ≤ n) :
    readRest negative significand start ((exponentChars true n).map byte ++ rest) =
      readParts negative 0 0 rest := by
  obtain ⟨s, d, hs, hd, hvalue, hread⟩ :=
    readRest_exponentChars negative true significand start n rest
  have hd' : d < exponentBound := Nat.lt_trans hd (by decide)
  rw [hread, readExponentDigits_of_le hs hvalue hd' hn _ _ _ hrest]

end Exponent

theorem readRest_of_end {rest : Bytes} (h : endsNumber rest = true) (negative : Bool)
    (significand : Nat) (start : ℤ) :
    readRest negative significand start rest = readParts negative significand start rest := by
  cases rest with
  | nil => rfl
  | cons b rest =>
    simp only [endsNumber, Bool.not_eq_true', Bool.or_eq_false_iff, decide_eq_false_iff_not] at h
    rw [readRest, if_neg (not_or.mpr ⟨h.1.2, h.2⟩)]

/-! ### Scaling -/

/-- A significand can be scaled by a power of ten. -/
def Scales (significand : Nat) (e : ℤ) : Prop :=
  ∃ x, scaleByPower (Floating.ofNat .double significand) e maxSteps = some x ∧ x.isFinite = true

theorem readParts_of_scales {significand : Nat} {e : ℤ} (h : Scales significand e)
    (negative : Bool) :
    ∃ n, ∀ rest, readParts negative significand e rest = .ok (n, rest) := by
  obtain ⟨x, hx, hfinite⟩ := h
  have hsigned : (if negative then x.neg else x).isFinite = true := by
    cases negative with
    | false => exact hfinite
    | true => exact (Floating.isFinite_neg x).trans hfinite
  refine ⟨.real _ hsigned, fun rest => ?_⟩
  rw [readParts, hx]
  exact dif_pos hsigned

theorem tenth_power_lt : (10 : ℚ) ^ maxPower < Floating.overflow := by
  have hnat : 10 ^ 308 + 2 ^ 970 < 2 ^ 1024 := by decide +kernel
  have hcast : (10 : ℚ) ^ 308 + 2 ^ 970 < 2 ^ 1024 := by exact_mod_cast hnat
  exact lt_sub_iff_add_lt.mpr hcast

section Power

variable {k : Nat} (hk : k ≤ maxPower)
include hk

theorem cast_power_lt : ((Nat.pow 10 k : Nat) : ℚ) < Floating.overflow := by
  refine lt_of_le_of_lt ?_ tenth_power_lt
  push_cast [Nat.pow_eq]
  gcongr
  norm_num

theorem isFinite_power : (Floating.ofNat .double (Nat.pow 10 k)).isFinite = true :=
  Floating.isFinite_ofNat (cast_power_lt hk)

theorem value_power_le :
    (Floating.ofNat .double (Nat.pow 10 k)).value ≤ 10 ^ k * (1 + 2 ^ (-53 : ℤ)) := by
  have hle := Floating.value_ofNat_le (cast_power_lt hk) (Nat.pow_pos (by decide))
  push_cast [Nat.pow_eq] at hle
  exact hle

theorem lt_value_power :
    ((Nat.pow 10 k : Nat) : ℚ) / 2 < (Floating.ofNat .double (Nat.pow 10 k)).value :=
  Floating.lt_value_ofNat (cast_power_lt hk) (Nat.pow_pos (by decide))

/-- A power of ten is at least a half. -/
theorem half_lt_value_power : 1 / 2 < (Floating.ofNat .double (Nat.pow 10 k)).value := by
  have hone : 1 ≤ Nat.pow 10 k := Nat.pow_pos (by decide)
  have hone' : (1 : ℚ) ≤ (Nat.pow 10 k : Nat) := by exact_mod_cast hone
  have hlt := lt_value_power hk
  linarith

end Power

/-- What is divided stays below this. -/
def quotientBound : ℚ := 2 ^ 65

theorem quotientBound_lt : 2 * quotientBound < Floating.overflow := by
  have hnat : 2 * 2 ^ 65 + 2 ^ 970 < 2 ^ 1024 := by decide +kernel
  have hcast : (2 : ℚ) * 2 ^ 65 + 2 ^ 970 < 2 ^ 1024 := by exact_mod_cast hnat
  exact lt_sub_iff_add_lt.mpr hcast

/-- A quotient by a power of ten is finite, and stays small. -/
theorem div_power {x : Floating .double} (hx : x.isFinite = true)
    (hvalue : x.value ≤ quotientBound) {k : Nat} (hk : k ≤ maxPower) :
    (x.div (Floating.ofNat .double (Nat.pow 10 k))).isFinite = true ∧
      (k = maxPower →
        (x.div (Floating.ofNat .double (Nat.pow 10 k))).value ≤ quotientBound) := by
  have hhalf := half_lt_value_power hk
  have hpos : 0 < (Floating.ofNat .double (Nat.pow 10 k)).value := by linarith
  have hratio : x.value / (Floating.ofNat .double (Nat.pow 10 k)).value ≤ 2 * quotientBound := by
    rw [div_le_iff₀ hpos]
    have hnonneg := x.value_nonneg
    nlinarith
  have hlt := hratio.trans_lt quotientBound_lt
  refine ⟨Floating.isFinite_div hx (isFinite_power hk) hpos hlt, ?_⟩
  rintro rfl
  have hpower : quotientBound ≤ (Floating.ofNat .double (Nat.pow 10 maxPower)).value := by
    have hlarge : ∀ k, 20 ≤ k → 2 * 2 ^ 65 ≤ Nat.pow 10 k := fun k hk =>
      Nat.le_trans (show 2 * 2 ^ 65 ≤ 10 ^ 20 by decide) (Nat.pow_le_pow_right (by decide) hk)
    have hnat := hlarge maxPower (by decide)
    have hcast : (2 : ℚ) * 2 ^ 65 ≤ (Nat.pow 10 maxPower : Nat) := by
      generalize Nat.pow 10 maxPower = p at hnat
      exact_mod_cast hnat
    have hlt := lt_value_power hk
    rw [quotientBound]
    linarith
  have hone := div_le_one_of_le₀ (hvalue.trans hpower) (Floating.value_nonneg _)
  have hsmall : (2 : ℚ) ^ (-53 : ℤ) ≤ 1 := zpow_le_one_of_nonpos₀ one_le_two (by norm_num)
  have hsmallest : (2 : ℚ) ^ (-1075 : ℤ) ≤ 1 := zpow_le_one_of_nonpos₀ one_le_two (by norm_num)
  calc _ ≤ x.value / (Floating.ofNat .double (Nat.pow 10 maxPower)).value *
          (1 + 2 ^ (-53 : ℤ)) + 2 ^ (-1075 : ℤ) :=
        Floating.value_div_le hx (isFinite_power hk) hpos hlt
    _ ≤ 1 * (1 + 1) + 1 := by gcongr
    _ ≤ quotientBound := by norm_num [quotientBound]

theorem exists_scaleByPower_of_neg (steps : Nat) {x : Floating .double} (hx : x.isFinite = true)
    (hvalue : x.value ≤ quotientBound) {e : ℤ} (he : e < 0) :
    ∃ y, scaleByPower x e steps = some y ∧ y.isFinite = true := by
  induction steps generalizing x e with
  | zero => exact ⟨x, rfl, hx⟩
  | succ steps ih =>
    rw [scaleByPower]
    split
    · rename_i hk
      dsimp only
      rw [if_neg (not_le.mpr he)]
      exact ⟨_, rfl, (div_power hx hvalue hk).1⟩
    · rename_i hlarge
      split
      · exact ⟨x, rfl, hx⟩
      · rw [if_neg (not_le.mpr he)]
        obtain ⟨hfinite, hsmall⟩ := div_power hx hvalue (Nat.le_refl maxPower)
        refine ih hfinite (hsmall rfl) ?_
        omega

theorem cast_significand_lt {significand : Nat} (hfits : significand < UInt64.size) :
    (significand : ℚ) < 2 ^ 64 := by
  exact_mod_cast hfits

theorem isFinite_significand {significand : Nat} (hfits : significand < UInt64.size) :
    (Floating.ofNat .double significand).isFinite = true := by
  refine Floating.isFinite_ofNat ((cast_significand_lt hfits).trans ?_)
  refine lt_of_le_of_lt ?_ quotientBound_lt
  norm_num [quotientBound]

theorem value_significand_le {significand : Nat} (hfits : significand < UInt64.size) :
    (Floating.ofNat .double significand).value ≤ significand * (1 + 2 ^ (-53 : ℤ)) := by
  rcases Nat.eq_zero_or_pos significand with rfl | hpos
  · rw [Nat.cast_zero, zero_mul]
    exact (Floating.value_ofMagnitude_zero false).le
  · refine Floating.value_ofNat_le ((cast_significand_lt hfits).trans ?_) hpos
    refine lt_of_le_of_lt ?_ quotientBound_lt
    norm_num [quotientBound]

/-- Below the last two numbers there is room for two more roundings. -/
theorem roundings_lt :
    (2 ^ 53 - 5 / 2 : ℚ) * 2 ^ 971 * (1 + 2 ^ (-53 : ℤ)) ^ 2 < Floating.overflow := by
  have hlow : (2 : ℚ) ^ 971 = 2 ^ 970 * 2 := pow_succ _ _
  have hhigh : (2 : ℚ) ^ 1024 = 2 ^ 970 * 2 ^ 54 := by rw [← pow_add]
  have hpos : (0 : ℚ) < 2 ^ 970 := by positivity
  rw [Floating.overflow, hlow, hhigh]
  generalize (2 : ℚ) ^ 970 = p at hpos
  have hfactor : (2 ^ 53 - 5 / 2 : ℚ) * 2 * (1 + 2 ^ (-53 : ℤ)) ^ 2 < 2 ^ 54 - 1 := by norm_num
  calc (2 ^ 53 - 5 / 2 : ℚ) * (p * 2) * (1 + 2 ^ (-53 : ℤ)) ^ 2
      = p * ((2 ^ 53 - 5 / 2) * 2 * (1 + 2 ^ (-53 : ℤ)) ^ 2) := by ring
    _ < p * (2 ^ 54 - 1) := by gcongr
    _ = p * 2 ^ 54 - p := by ring

/-- No product with a larger power of ten is that small. -/
theorem lt_power {k : Nat} (hk : ¬ k ≤ maxPower) :
    (2 ^ 53 - 5 / 2 : ℚ) * 2 ^ 971 < 10 ^ k := by
  have hnat : 2 ^ 53 * 2 ^ 971 ≤ 10 ^ (maxPower + 1) := by decide +kernel
  calc (2 ^ 53 - 5 / 2 : ℚ) * 2 ^ 971 < 2 ^ 53 * 2 ^ 971 := by gcongr; norm_num
    _ ≤ 10 ^ (maxPower + 1) := by exact_mod_cast hnat
    _ ≤ 10 ^ k := by gcongr; norm_num; omega

/-- **Products in range.** The bound leaves room for rounding the significand, the power and the
product. -/
theorem scales_of_le {significand : Nat} {e : ℤ} (hfits : significand < UInt64.size) (he : 0 ≤ e)
    (hle : (significand : ℚ) * 10 ^ e ≤ (2 ^ 53 - 5 / 2) * 2 ^ 971) : Scales significand e := by
  obtain ⟨k, rfl⟩ := Int.eq_ofNat_of_zero_le he
  have hx := isFinite_significand hfits
  rw [Scales, maxSteps, scaleByPower, Int.natAbs_natCast]
  by_cases hk : k ≤ maxPower
  · have hproduct : (Floating.ofNat .double significand).value *
        (Floating.ofNat .double (Nat.pow 10 k)).value < Floating.overflow := by
      rw [zpow_natCast] at hle
      calc _ ≤ (significand : ℚ) * (1 + 2 ^ (-53 : ℤ)) * (10 ^ k * (1 + 2 ^ (-53 : ℤ))) :=
            mul_le_mul (value_significand_le hfits) (value_power_le hk) (Floating.value_nonneg _)
              (by positivity)
        _ = significand * 10 ^ k * (1 + 2 ^ (-53 : ℤ)) ^ 2 := by ring
        _ ≤ (2 ^ 53 - 5 / 2) * 2 ^ 971 * (1 + 2 ^ (-53 : ℤ)) ^ 2 := by gcongr
        _ < Floating.overflow := roundings_lt
    have hfinite := Floating.isFinite_mul hx (isFinite_power hk) hproduct
    rw [if_pos hk]
    dsimp only
    rw [if_pos he, if_pos hfinite]
    exact ⟨_, rfl, hfinite⟩
  · -- Only zero has so large an exponent.
    have hzero : (Floating.ofNat .double significand).isZero = true := by
      have hnone : significand = 0 := by
        by_contra hne
        have hone : (1 : ℚ) ≤ significand := by exact_mod_cast Nat.pos_of_ne_zero hne
        rw [zpow_natCast] at hle
        have hge : (10 : ℚ) ^ k ≤ significand * 10 ^ k :=
          le_mul_of_one_le_left (by positivity) hone
        exact absurd (hge.trans hle) (not_le.mpr (lt_power hk))
      rw [Floating.isZero_iff_value hx, hnone]
      exact Floating.value_ofMagnitude_zero false
    rw [if_neg hk, if_pos hzero]
    exact ⟨_, rfl, hx⟩

theorem scales_of_nonpos {significand : Nat} {e : ℤ} (hfits : significand < UInt64.size)
    (he : e ≤ 0) : Scales significand e := by
  rcases he.lt_or_eq with hneg | rfl
  · refine exists_scaleByPower_of_neg maxSteps (isFinite_significand hfits) ?_ hneg
    refine (value_significand_le hfits).trans ?_
    have hlt := cast_significand_lt hfits
    have hsmall : (2 : ℚ) ^ (-53 : ℤ) ≤ 1 := zpow_le_one_of_nonpos₀ one_le_two (by norm_num)
    calc (significand : ℚ) * (1 + 2 ^ (-53 : ℤ)) ≤ 2 ^ 64 * (1 + 1) := by gcongr
      _ = quotientBound := by norm_num [quotientBound]
  · refine scales_of_le hfits le_rfl ?_
    rw [zpow_zero, mul_one]
    calc (significand : ℚ) ≤ 2 ^ 64 := (cast_significand_lt hfits).le
      _ ≤ (2 ^ 53 - 5 / 2) * 2 ^ 64 := by norm_num
      _ ≤ (2 ^ 53 - 5 / 2) * 2 ^ 971 := by gcongr <;> norm_num

/-! ### The texts of doubles -/

/-- A text is read as a significand and an exponent that can be scaled. -/
structure ReadsParts (body : List Char) : Prop where
  ascii : isAscii body = true
  digit : ∃ c s, body = c :: s ∧ c.isDigit = true
  read : ∃ significand e, Scales significand e ∧
    ∀ (negative : Bool) (rest : Bytes), endsNumber rest = true →
      readNumber negative (body.map byte ++ rest) = readParts negative significand e rest

/-- However many digits are dropped, what is left of a decimal can be scaled. -/
def IsScalable (d : Decimal) : Prop :=
  ∀ significand dropped : Nat, significand < UInt64.size →
    significand * 10 ^ dropped ≤ d.digits →
    (d.digits < UInt64.size → significand = d.digits ∧ dropped = 0) →
      Scales significand (d.exponent + dropped)

section Texts

variable {c : Char} {s : List Char} {d n : Nat} (hdigits : ∀ c' ∈ c :: s, c'.isDigit = true)
  (hd : Text.digitValue? c = some d) (hzero : d = 0 → s = [])
  (hvalue : Text.digitsValue d s = some n)
include hdigits hd hzero hvalue

/-- Digits, a point and more digits. -/
theorem readsParts_point (hn : n < UInt64.size) {places : List Char}
    (hplaces : ∀ c ∈ places, c.isDigit = true) (hne : places ≠ []) :
    ReadsParts (c :: s ++ '.' :: places) := by
  obtain ⟨n', hn'⟩ := Text.exists_digitsValue hplaces n
  obtain ⟨value, count, htaken, hread⟩ := exists_readPlaces hplaces hne hn hn'
  refine ⟨isAscii_append.mpr ⟨isAscii_of_digits hdigits, isAscii_cons.mpr
      ⟨by decide, isAscii_of_digits hplaces⟩⟩, ⟨c, _, rfl, hdigits c List.mem_cons_self⟩,
    value, -(count : ℤ), scales_of_nonpos htaken.fits (by omega), fun negative rest hrest => ?_⟩
  have hstop := startsWithDigit_of_endsNumber hrest
  rw [List.map_append, List.append_assoc, readNumber_digits hdigits hd hzero hvalue hn negative rfl]
  show readPlaces negative n 0 (places.map byte ++ rest) = _
  rw [hread negative rest hstop, readRest_of_end hrest]

end Texts

/-- An exponent, behind a significand of which digits may have been dropped. -/
theorem exists_readRest {significand : Nat} {start : ℤ} (hfits : significand < UInt64.size)
    (hstart : start ≤ 0) {leading : ℤ} (hlt : leading < exponentBound)
    (hscales : 0 ≤ leading → Scales significand (start + leading)) :
    ∃ significand' e, Scales significand' e ∧
      ∀ (negative : Bool) (rest : Bytes), endsNumber rest = true →
        readRest negative significand start
            ((exponentChars (leading < 0) leading.natAbs).map byte ++ rest) =
          readParts negative significand' e rest := by
  rcases lt_or_ge leading 0 with hneg | hnonneg
  · have habs : start - leading.natAbs = start + leading := by omega
    rw [decide_eq_true hneg]
    rcases Nat.lt_or_ge leading.natAbs exponentBound with hsmall | hlarge
    · refine ⟨significand, start + leading, scales_of_nonpos hfits (by omega),
        fun negative rest hrest => ?_⟩
      rw [readRest_exponent _ _ _ (startsWithDigit_of_endsNumber hrest) _ hsmall, if_pos rfl, habs]
    · refine ⟨0, 0, scales_of_nonpos (by decide) le_rfl, fun negative rest hrest => ?_⟩
      rw [readRest_longExponent _ _ _ (startsWithDigit_of_endsNumber hrest) hlarge]
  · have habs : start + leading.natAbs = start + leading := by omega
    refine ⟨significand, start + leading, hscales hnonneg, fun negative rest hrest => ?_⟩
    rw [decide_eq_false (not_lt.mpr hnonneg),
      readRest_exponent _ _ _ (startsWithDigit_of_endsNumber hrest) _ (by omega),
      if_neg Bool.false_ne_true, habs]

theorem scientificText_cons (c : Char) (places : List Char) (leading : ℤ) :
    Floating.scientificText (c :: places) leading =
      c :: (if places = [] then [] else '.' :: places) ++
        exponentChars (leading < 0) leading.natAbs := by
  cases places <;> simp [Floating.scientificText, exponentChars]

/-- One digit, the others after a point, and an exponent. -/
theorem readsParts_scientific {d : Decimal} (h : IsScalable d) {leading : ℤ}
    (hleading : leading = d.exponent + ((Text.decimal d.digits).length - 1 : Nat))
    (hlt : leading < exponentBound) :
    ReadsParts (Floating.scientificText (Text.decimal d.digits) leading) := by
  have hdigits : ∀ c ∈ Text.decimal d.digits, c.isDigit = true := fun c =>
    Text.isDigit_of_mem_decimal
  have hvalue := Text.digitsValue_decimal d.digits
  obtain ⟨c, s, first, hdecimal, hfirst, -⟩ := decimal_eq_cons d.digits
  rw [hdecimal] at hdigits hvalue hleading ⊢
  rw [Text.digitsValue, hfirst, Option.bind_some, Nat.zero_mul, Nat.zero_add] at hvalue
  rw [List.length_cons, Nat.add_sub_cancel] at hleading
  obtain ⟨hc, hs⟩ := List.forall_mem_cons.mp hdigits
  have hsmall : first < UInt64.size := Nat.lt_trans (Text.lt_of_digitValue? hfirst) (by decide)
  have hread : ∀ (negative : Bool) {rest : Bytes}, startsWithDigit rest = false →
      readNumber negative (byte c :: rest) = readAfterInteger negative first rest :=
    readNumber_digits (s := []) (by simpa using hc) hfirst (fun _ => rfl) rfl hsmall
  have hascii : isAscii (c :: (if s = [] then [] else '.' :: s) ++
      exponentChars (leading < 0) leading.natAbs) = true := by
    refine isAscii_append.mpr ⟨?_, isAscii_exponentChars _ _⟩
    split
    · exact isAscii_of_digits (by simpa using hc)
    · exact isAscii_cons.mpr ⟨toNat_lt_of_isDigit hc, isAscii_cons.mpr
        ⟨by decide, isAscii_of_digits hs⟩⟩
  rw [scientificText_cons]
  refine ⟨hascii, ⟨c, _, rfl, hc⟩, ?_⟩
  by_cases hplaces : s = []
  · subst hplaces
    obtain rfl := Option.some.inj hvalue
    obtain ⟨significand, e, hscales, hrest⟩ := exists_readRest hsmall le_rfl hlt fun _ => by
      rw [hleading, zero_add]
      exact h _ 0 hsmall (by simp) fun _ => ⟨rfl, rfl⟩
    refine ⟨significand, e, hscales, fun negative rest hends => ?_⟩
    rw [← hrest negative rest hends, if_pos rfl, List.map_append]
    exact hread negative rfl
  · obtain ⟨value, count, htaken, hpoint⟩ := exists_readPlaces hs hplaces hsmall hvalue
    have hcount := htaken.count_le
    have hstart : -(count : ℤ) ≤ 0 := by omega
    obtain ⟨significand, e, hscales, hrest⟩ :=
      exists_readRest htaken.fits hstart hlt fun _ => by
        have hexponent : -(count : ℤ) + leading = d.exponent + (s.length - count : Nat) := by omega
        rw [hexponent]
        refine h _ _ htaken.fits htaken.le fun hlt => ?_
        obtain ⟨hsame, hall⟩ := htaken.exact hlt
        exact ⟨hsame, by omega⟩
    refine ⟨significand, e, hscales, fun negative rest hends => ?_⟩
    rw [if_neg hplaces, ← hrest negative rest hends, ← hpoint negative _ rfl, List.map_append,
      List.append_assoc]
    exact hread negative rfl

/-- A number of at most 16 digits fits. -/
theorem exists_digitsValue_lt {c : Char} {first : Nat} {front : List Char}
    (hfirst : Text.digitValue? c = some first) (hfront : ∀ c ∈ front, c.isDigit = true)
    (hlength : front.length ≤ 15) :
    ∃ n, Text.digitsValue first front = some n ∧ n < UInt64.size := by
  obtain ⟨n, hn⟩ := Text.exists_digitsValue hfront first
  refine ⟨n, hn, ?_⟩
  have hlt := Text.lt_of_digitValue? hfirst
  calc n < (first + 1) * 10 ^ front.length := Text.lt_mul_pow_of_digitsValue hn
    _ ≤ 10 * 10 ^ 15 := Nat.mul_le_mul hlt (Nat.pow_le_pow_right (by decide) hlength)
    _ < UInt64.size := by decide

/-- Digits before and after the point. -/
theorem readsParts_positional {d : Decimal} (hzero : d.digits = 0 → d.exponent = 0) {leading : ℤ}
    (hleading : leading = d.exponent + ((Text.decimal d.digits).length - 1 : Nat))
    (hle : leading ≤ 15) :
    ReadsParts (Floating.positionalText true (Text.decimal d.digits) leading) := by
  have hdigits : ∀ c ∈ Text.decimal d.digits, c.isDigit = true := fun c =>
    Text.isDigit_of_mem_decimal
  have hzeros : ∀ n, ∀ c ∈ List.replicate n '0', c.isDigit = true := fun n c hc =>
    (List.eq_of_mem_replicate hc) ▸ rfl
  rw [Floating.positionalText]
  split
  · refine readsParts_point (c := '0') (s := []) (d := 0) (n := 0) (by simp) rfl (fun _ => rfl) rfl
      (by decide) ?_ ?_
    · exact List.forall_mem_append.mpr ⟨hzeros _, hdigits⟩
    · exact List.append_ne_nil_of_right_ne_nil _ (Text.decimal_ne_nil _)
  · rename_i hnonneg
    have hvalue := Text.digitsValue_decimal d.digits
    obtain ⟨c, s, first, hdecimal, hfirst, halone⟩ := decimal_eq_cons d.digits
    rw [hdecimal] at hdigits hvalue hleading ⊢
    rw [Text.digitsValue, hfirst, Option.bind_some, Nat.zero_mul, Nat.zero_add] at hvalue
    rw [List.length_cons, Nat.add_sub_cancel] at hleading
    obtain ⟨k, rfl⟩ := Int.eq_ofNat_of_zero_le (not_lt.mp hnonneg)
    obtain ⟨hc, hs⟩ := List.forall_mem_cons.mp hdigits
    -- The integer part has at most 16 digits.
    generalize hfront : s.take k ++ List.replicate (k - s.length) '0' = front
    have hfrontDigits : ∀ c ∈ front, c.isDigit = true := hfront ▸ List.forall_mem_append.mpr
      ⟨fun c hc => hs c (List.mem_of_mem_take hc), hzeros _⟩
    have hlength : front.length ≤ 15 := by
      rw [← hfront, List.length_append, List.length_take, List.length_replicate]
      omega
    obtain ⟨n, hn, hfits⟩ := exists_digitsValue_lt hfirst hfrontDigits hlength
    have hfrontZero : first = 0 → front = [] := by
      rintro rfl
      obtain rfl := halone rfl
      have hexponent := hzero (Option.some.inj hvalue).symm
      have hk : k = 0 := by
        rw [hexponent, List.length_nil] at hleading
        omega
      rw [← hfront, hk]
      rfl
    have hplaces : ∀ places : List Char, (∀ c ∈ places, c.isDigit = true) → places ≠ [] →
        ReadsParts (c :: front ++ '.' :: places) := fun places =>
      readsParts_point (List.forall_mem_cons.mpr ⟨hc, hfrontDigits⟩) hfirst hfrontZero hn hfits
    dsimp only
    rw [Int.toNat_natCast, List.take_succ_cons, List.drop_succ_cons, List.length_cons,
      Nat.add_sub_add_right, List.cons_append, hfront]
    split
    · exact hplaces ['0'] (List.forall_mem_singleton.mpr rfl) (List.cons_ne_nil _ _)
    · rename_i hleft
      exact hplaces _ (fun c hc => hs c (List.mem_of_mem_drop hc)) hleft

/-! ### Which decimals are written -/

/-- The largest two numbers. -/
def nearMax (last : Bool) : Floating .double :=
  .ofMagnitude .double false (0x7feffffffffffffe + if last then 1 else 0)

theorem shortest_nearMax (last : Bool) :
    (nearMax last).shortest = ⟨if last then 17976931348623157 else 17976931348623155, 292⟩ := by
  cases last <;> decide +kernel

theorem isScalable_nearMax (last : Bool) : IsScalable (nearMax last).shortest := by
  have hscales : (scaleByPower (Floating.ofNat .double (nearMax last).shortest.digits) 292
      maxSteps).any Floating.isFinite = true := by
    cases last <;> decide +kernel
  obtain ⟨x, hx, hfinite⟩ := (Option.any_eq_true _ _).mp hscales
  intro significand dropped _ _ hexact
  obtain ⟨rfl, rfl⟩ := hexact (by rw [shortest_nearMax]; cases last <;> decide)
  refine ⟨x, ?_, hfinite⟩
  rw [← hx, shortest_nearMax]
  rfl

/-- A decimal below the last two numbers can be scaled. -/
theorem isScalable_of_le {d : Decimal} (h : d.value ≤ (2 ^ 53 - 5 / 2) * 2 ^ 971) :
    IsScalable d := by
  intro significand dropped hfits hle _
  rcases le_or_gt 0 (d.exponent + dropped) with hnonneg | hneg
  · refine scales_of_le hfits hnonneg (le_trans ?_ h)
    have hle' : (significand : ℚ) * 10 ^ dropped ≤ d.digits := by exact_mod_cast hle
    rw [zpow_add₀ (by norm_num), zpow_natCast, Decimal.value, mul_left_comm, mul_comm]
    gcongr
  · exact scales_of_nonpos hfits hneg.le

theorem significand_add_half_le (x : Floating .double) : (x.significand : ℚ) + 1 / 2 ≤ 2 ^ 53 := by
  have hcast : (x.significand : ℚ) + 1 ≤ (2 ^ 53 : Nat) := by exact_mod_cast x.significand_lt
  push_cast at hcast
  linarith

theorem upper_le {x : Floating .double} (hx : x.isFinite = true)
    (h : x.significand ≤ 2 ^ 53 - 3 ∨ x.exponent < 971) :
    x.upper ≤ (2 ^ 53 - 5 / 2) * 2 ^ 971 := by
  rw [Floating.upper]
  rcases h with hsmall | hlow
  · have hsignificand : (x.significand : ℚ) + 1 / 2 ≤ 2 ^ 53 - 5 / 2 := by
      have hcast : (x.significand : ℚ) + 3 ≤ (2 ^ 53 : Nat) := by
        exact_mod_cast Nat.add_le_of_le_sub (by decide) hsmall
      push_cast at hcast
      linarith
    have hpower : (2 : ℚ) ^ x.exponent ≤ 2 ^ ((971 : Nat) : ℤ) :=
      zpow_le_zpow_right₀ one_le_two (Floating.exponent_le hx)
    rw [zpow_natCast] at hpower
    exact mul_le_mul hsignificand hpower (by positivity) (by norm_num)
  · have hsignificand : (x.significand : ℚ) + 1 / 2 ≤ 2 ^ 53 := significand_add_half_le x
    have hpower : (2 : ℚ) ^ x.exponent ≤ 2 ^ ((970 : Nat) : ℤ) :=
      zpow_le_zpow_right₀ one_le_two (Int.le_of_lt_add_one hlow)
    rw [zpow_natCast] at hpower
    calc _ ≤ (2 : ℚ) ^ 53 * 2 ^ 970 := by gcongr
      _ ≤ (2 ^ 53 - 5 / 2) * 2 * 2 ^ 970 := by
        gcongr
        norm_num
      _ = (2 ^ 53 - 5 / 2) * 2 ^ 971 := by rw [pow_succ' 2 970, mul_assoc]

/-- **The decimal of a number can be scaled.** -/
theorem isScalable_shortest {x : Floating .double} (hx : x.isFinite = true)
    (hvalue : x.shortest.value ≤ x.upper) : IsScalable x.shortest := by
  by_cases h : x.significand ≤ 2 ^ 53 - 3 ∨ x.exponent < 971
  · exact isScalable_of_le (hvalue.trans (upper_le hx h))
  · rw [not_or, not_le, not_lt] at h
    have hlt := x.significand_lt
    obtain ⟨last, hlast⟩ : ∃ last : Bool, x.significand = (nearMax last).significand := by
      have hbounds : x.significand = 2 ^ 53 - 1 ∨ x.significand = 2 ^ 53 - 2 := by omega
      rcases hbounds with hmax | hnext
      · exact ⟨true, hmax.trans (by decide)⟩
      · exact ⟨false, hnext.trans (by decide)⟩
    have hexponent : x.exponent = (nearMax last).exponent :=
      (le_antisymm (Floating.exponent_le hx) h.2).trans (by cases last <;> decide)
    rw [Floating.shortest_congr hlast hexponent]
    exact isScalable_nearMax last

/-- The leading digit of a decimal. -/
theorem power_le_value {d : Decimal} (h : 0 < d.digits) :
    (10 : ℚ) ^ (d.exponent + ((Text.decimal d.digits).length - 1 : Nat)) ≤ d.value := by
  have hvalue := Text.digitsValue_decimal d.digits
  obtain ⟨c, s, first, hdecimal, hfirst, halone⟩ := decimal_eq_cons d.digits
  rw [hdecimal] at hvalue ⊢
  rw [Text.digitsValue, hfirst, Option.bind_some, Nat.zero_mul, Nat.zero_add] at hvalue
  have hpos : 0 < first := by
    refine Nat.pos_of_ne_zero fun hzero => ?_
    obtain rfl := halone hzero
    exact absurd ((Option.some.inj hvalue).symm.trans hzero) h.ne'
  have hle : 10 ^ s.length ≤ d.digits :=
    Nat.le_trans (Nat.le_mul_of_pos_left _ hpos) (Text.mul_pow_le_of_digitsValue hvalue)
  have hle' : (10 : ℚ) ^ s.length ≤ d.digits := by exact_mod_cast hle
  rw [zpow_add₀ (by norm_num), zpow_natCast, Decimal.value, List.length_cons, Nat.add_sub_cancel,
    mul_comm]
  gcongr

theorem length_decimal_le {n : Nat} (h : n < 10 ^ 16) : (Text.decimal n).length - 1 ≤ 15 := by
  rcases Nat.eq_zero_or_pos n with rfl | hpos
  · decide
  have hle := power_le_value (d := ⟨n, 0⟩) hpos
  rw [Decimal.value, zero_add, zpow_zero, mul_one, zpow_natCast] at hle
  have hlt : (10 : ℚ) ^ ((Text.decimal n).length - 1) < 10 ^ 16 :=
    hle.trans_lt (by exact_mod_cast h)
  exact Nat.le_of_lt_succ ((pow_lt_pow_iff_right₀ (by norm_num)).mp hlt)

theorem leading_lt {x : Floating .double} (hx : x.isFinite = true) (hpos : 0 < x.shortest.digits)
    (hvalue : x.shortest.value ≤ x.upper) :
    x.shortest.exponent + ((Text.decimal x.shortest.digits).length - 1 : Nat) < 309 := by
  have hnat : 2 ^ 53 * 2 ^ 971 < 10 ^ 309 := by decide +kernel
  have hpower : (2 : ℚ) ^ x.exponent ≤ 2 ^ 971 :=
    zpow_le_zpow_right₀ one_le_two (Floating.exponent_le hx)
  rw [← zpow_lt_zpow_iff_right₀ (show (1 : ℚ) < 10 by norm_num)]
  calc _ ≤ x.shortest.value := power_le_value hpos
    _ ≤ x.upper := hvalue
    _ ≤ 2 ^ 53 * 2 ^ 971 := by
      rw [Floating.upper]
      have hsignificand := significand_add_half_le x
      gcongr
    _ < 10 ^ (309 : ℤ) := by exact_mod_cast hnat

theorem readsParts_shortest {x : Floating .double} (hx : x.isFinite = true) {leading : ℤ}
    (hleading : leading =
      x.shortest.exponent + ((Text.decimal x.shortest.digits).length - 1 : Nat)) :
    ReadsParts (if doubleLayout.isPositional leading then
      Floating.positionalText true (Text.decimal x.shortest.digits) leading
      else Floating.scientificText (Text.decimal x.shortest.digits) leading) := by
  have hpositional : (x.shortest.digits = 0 → x.shortest.exponent = 0) →
      doubleLayout.isPositional leading = true →
      ReadsParts (Floating.positionalText true (Text.decimal x.shortest.digits) leading) := by
    intro hzero hrange
    have hle : leading ≤ 15 := of_decide_eq_true (Bool.and_eq_true_iff.mp hrange).2
    exact readsParts_positional hzero hleading hle
  by_cases hsignificand : x.significand = 0
  · have hshortest : x.shortest = ⟨0, 0⟩ := by rw [Floating.shortest, if_pos hsignificand]
    rw [hshortest] at hleading hpositional ⊢
    obtain rfl : leading = 0 := hleading
    exact hpositional (fun _ => rfl) rfl
  rcases Floating.shortest_cases hsignificand with hself | ⟨hpos, hvalue⟩
  · have hlength : (Text.decimal x.shortest.digits).length - 1 ≤ 15 := by
      rw [hself]
      exact length_decimal_le (Nat.lt_trans x.significand_lt (by decide))
    have hexponent : x.shortest.exponent = 0 := by rw [hself]
    have hrange : doubleLayout.isPositional leading = true := by
      refine Bool.and_eq_true_iff.mpr ⟨decide_eq_true ?_, decide_eq_true ?_⟩ <;> omega
    rw [if_pos hrange]
    exact hpositional (fun _ => hexponent) hrange
  · split
    · rename_i hrange
      exact hpositional (fun hzero => absurd hzero hpos.ne') hrange
    · have hbound : (309 : ℤ) < exponentBound := by decide
      exact readsParts_scientific (isScalable_shortest hx hvalue) hleading
        (hleading ▸ (leading_lt hx hpos hvalue).trans hbound)

/-- **A double is read as a number**, whatever the budget. -/
theorem reads_real (x : Floating .double) (hx : x.isFinite = true) :
    ∃ n, ∀ depth, Reads (readValue depth) (Number.real x hx).chars (number n) := by
  obtain ⟨hascii, ⟨c, s, hbody, hc⟩, significand, e, hscales, hread⟩ :=
    readsParts_shortest hx rfl
  have hchars : (Number.real x hx).chars = (if x.negative then ['-'] else []) ++ c :: s := by
    rw [← hbody]
    simp [Number.chars, Floating.render, Floating.isNaN_eq_false hx, hx, doubleLayout]
  rw [hbody] at hascii hread
  have hdigit := isDigit_byte hc
  obtain ⟨n, hparts⟩ := readParts_of_scales hscales x.negative
  rw [hchars]
  refine ⟨n, fun depth => ?_⟩
  cases hsign : x.negative with
  | true =>
    refine ⟨rfl, fun rest hrest => ?_⟩
    rw [if_pos rfl, List.singleton_append, encode_cons (by decide), List.cons_append,
      readValue_minus, encode_of_ascii hascii, hread true rest hrest, ← hsign, hparts]
    rfl
  | false =>
    refine ⟨beginsValue_of_isDigit hc s, fun rest hrest => ?_⟩
    rw [if_neg Bool.false_ne_true, List.nil_append, encode_of_ascii hascii]
    have hnumber := hread false rest hrest
    rw [List.map_cons, List.cons_append] at hnumber ⊢
    rw [readValue_digit hdigit, hnumber, ← hsign, hparts]
    rfl

end Json

end PlatformProxy
