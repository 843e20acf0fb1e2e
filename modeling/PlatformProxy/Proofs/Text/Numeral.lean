import Mathlib.Algebra.GroupWithZero.Nat
import Mathlib.Algebra.Ring.Int.Defs
import Mathlib.Data.Nat.Digits.Defs
import Mathlib.Tactic.Ring
import PlatformProxy.Text.Digit

/-!
# Numerals through text and back

A number written in decimal reads as that number, within any bound it is below. Its digits are
ASCII digits, which are decimal digits of Unicode as well.

What is read may also have zeros in front. A numeral is therefore a text of ASCII digits with the
number that they write in base ten, which is said without a reader: a reader goes from the left and
may stop at any digit, while the number is a sum over all of them.

## Main definitions

* `Text.IsNumeral` — a numeral and its number

## Main results

* `Text.digitsValue_decimal` — the value of what is written
* `Text.readBounded_decimal` — and what it is read as
* `Text.readBounded_eq_ok_iff_isNumeral` — a numeral is read as its number, and nothing else is read
* `Text.baseValue?_decimal`, `Text.readInt64?_decimal` — the same with signs and bases
-/

namespace PlatformProxy

namespace Text

theorem digitsValue_append (value : Nat) (s t : List Char) :
    digitsValue value (s ++ t) = (digitsValue value s).bind fun v => digitsValue v t := by
  induction s generalizing value with
  | nil => rfl
  | cons c s ih =>
    rw [List.cons_append, digitsValue, digitsValue, Option.bind_assoc]
    exact congrArg _ (funext fun d => ih _)

theorem digitValue?_digitChar {d : Nat} (h : d < 10) : digitValue? (Nat.digitChar d) = some d := by
  revert d
  decide

theorem decimal_eq (n : Nat) : decimal n = Nat.toDigits 10 n := Nat.toList_repr

theorem digitsValue_decimal (n : Nat) : digitsValue 0 (decimal n) = some n := by
  rw [decimal_eq]
  induction n using Nat.strongRecOn with
  | ind n ih =>
    rw [Nat.toDigits_eq_if (by decide)]
    split
    · rename_i hlt
      simp [digitsValue, digitValue?_digitChar hlt]
    · rename_i hge
      rw [digitsValue_append, ih (n / 10) (by omega)]
      simp [digitsValue, digitValue?_digitChar (Nat.mod_lt n (by decide : 0 < 10))]
      omega

theorem decimal_ne_nil (n : Nat) : decimal n ≠ [] := by
  rw [decimal_eq]
  exact Nat.toDigits_ne_nil

theorem isDigit_of_mem_decimal {n : Nat} {c : Char} (h : c ∈ decimal n) : c.isDigit = true := by
  rw [decimal_eq] at h
  exact Nat.isDigit_of_mem_toDigits (by decide) (by decide) h

theorem bounds_of_isDigit {c : Char} (h : c.isDigit = true) : '0' ≤ c ∧ c ≤ '9' := by
  simpa [Char.isDigit, Char.le_def] using h

theorem isDecimalDigit_of_isDigit {c : Char} (h : c.isDigit = true) : isDecimalDigit c = true := by
  have hbounds := bounds_of_isDigit h
  rw [isDecimalDigit, decimalDigits, CharSet.ofRanges, CharSet.contains, List.any_cons]
  have hfirst : (decide (0x30 ≤ c.toNat) && decide (c.toNat ≤ 0x39)) = true := by
    simpa [Char.le_def, UInt32.le_iff_toNat_le] using hbounds
  rw [hfirst, Bool.true_or]

theorem lt_of_digitValue? {c : Char} {d : Nat} (h : digitValue? c = some d) : d < 10 := by
  rw [digitValue?] at h
  split at h
  · rename_i hbounds
    obtain rfl := Option.some.inj h
    have hle : c.toNat ≤ 57 := UInt32.le_iff_toNat_le.mp (Char.le_def.mp hbounds.2)
    show c.toNat - 48 < 10
    omega
  · exact absurd h nofun

/-- Digits have a value. -/
theorem exists_digitsValue {s : List Char} (h : ∀ c ∈ s, c.isDigit = true) (value : Nat) :
    ∃ n, digitsValue value s = some n := by
  induction s generalizing value with
  | nil => exact ⟨value, rfl⟩
  | cons c s ih =>
    obtain ⟨hc, hs⟩ := List.forall_mem_cons.mp h
    rw [digitsValue, digitValue?, if_pos (bounds_of_isDigit hc), Option.bind_some]
    exact ih hs _

theorem mul_pow_le_of_digitsValue {s : List Char} {value n : Nat}
    (h : digitsValue value s = some n) : value * 10 ^ s.length ≤ n := by
  induction s generalizing value with
  | nil => simpa [digitsValue] using Nat.le_of_eq (Option.some.inj h)
  | cons c s ih =>
    rw [digitsValue, Option.bind_eq_some_iff] at h
    obtain ⟨d, -, h⟩ := h
    rw [List.length_cons, Nat.pow_succ', ← Nat.mul_assoc]
    exact Nat.le_trans (Nat.mul_le_mul_right _ (Nat.le_add_right _ _)) (ih h)

theorem lt_mul_pow_of_digitsValue {s : List Char} {value n : Nat}
    (h : digitsValue value s = some n) : n < (value + 1) * 10 ^ s.length := by
  induction s generalizing value with
  | nil =>
    obtain rfl := Option.some.inj h
    simp
  | cons c s ih =>
    rw [digitsValue, Option.bind_eq_some_iff] at h
    obtain ⟨d, hd, h⟩ := h
    have hlt := lt_of_digitValue? hd
    rw [List.length_cons, Nat.pow_succ', ← Nat.mul_assoc]
    exact Nat.lt_of_lt_of_le (ih h) (Nat.mul_le_mul_right _ (by omega))

theorem readBounded_decimal {bound n : Nat} (h : n < bound) :
    readBounded bound (decimal n) = .ok n :=
  (readBounded_eq_ok_iff (Nat.zero_lt_of_lt h)).mpr
    ⟨decimal_ne_nil n, digitsValue_decimal n, h⟩

/-! ### Numerals -/

/-- What an ASCII digit counts. -/
def digitOf (c : Char) : Nat := c.toNat - '0'.toNat

/-- One or more ASCII digits, and the number they write in base ten. -/
structure IsNumeral (s : List Char) (n : Nat) : Prop where
  notEmpty : s ≠ []
  digits : ∀ c ∈ s, c.isDigit = true
  value : Nat.ofDigits 10 (s.reverse.map digitOf) = n

theorem digitValue?_of_isDigit {c : Char} (h : c.isDigit = true) :
    digitValue? c = some (digitOf c) :=
  if_pos (bounds_of_isDigit h)

theorem digitValue?_of_not_isDigit {c : Char} (h : c.isDigit ≠ true) : digitValue? c = none := by
  refine if_neg fun hbounds => h ?_
  simpa [Char.isDigit, Char.le_def] using hbounds

/-- Each digit moves the number before it one place up. -/
theorem digitsValue_eq_some_iff {value n : Nat} {s : List Char} :
    digitsValue value s = some n ↔ (∀ c ∈ s, c.isDigit = true) ∧
      value * 10 ^ s.length + Nat.ofDigits 10 (s.reverse.map digitOf) = n := by
  induction s generalizing value with
  | nil => simp [digitsValue]
  | cons c s ih =>
    rw [digitsValue, List.forall_mem_cons]
    by_cases hc : c.isDigit = true
    · have hplaces : (value * 10 + digitOf c) * 10 ^ s.length +
            Nat.ofDigits 10 (s.reverse.map digitOf) =
          value * 10 ^ (c :: s).length + Nat.ofDigits 10 ((c :: s).reverse.map digitOf) := by
        rw [List.map_reverse, List.map_reverse, List.map_cons, Nat.ofDigits_reverse_cons,
          List.length_map, List.length_cons]
        ring
      rw [digitValue?_of_isDigit hc, Option.bind_some, ih, hplaces]
      simp only [hc, true_and]
    · rw [digitValue?_of_not_isDigit hc]
      simp [hc]

section Bounded

variable {bound : Nat} {s : List Char}

/-- **A numeral below the bound is read as its number, and nothing else is read.** -/
theorem readBounded_eq_ok_iff_isNumeral (hb : 0 < bound) {n : Nat} :
    readBounded bound s = .ok n ↔ IsNumeral s n ∧ n < bound := by
  rw [readBounded_eq_ok_iff hb, digitsValue_eq_some_iff, Nat.zero_mul, Nat.zero_add]
  constructor
  · rintro ⟨hne, ⟨hdigits, hvalue⟩, hlt⟩
    exact ⟨⟨hne, hdigits, hvalue⟩, hlt⟩
  · rintro ⟨⟨hne, hdigits, hvalue⟩, hlt⟩
    exact ⟨hne, ⟨hdigits, hvalue⟩, hlt⟩

/-- What is refused has a foreign character, or its number is too large. -/
theorem exists_readBounded_eq_error_iff (hb : 0 < bound) (hs : s ≠ []) :
    (∃ e, readBounded bound s = .error e) ↔
      (∃ c ∈ s, c.isDigit = false) ∨ ∃ n, IsNumeral s n ∧ bound ≤ n := by
  have hrefused : (∃ e, readBounded bound s = .error e) ↔
      ∀ n, ¬ (IsNumeral s n ∧ n < bound) := by
    simp only [← readBounded_eq_ok_iff_isNumeral hb]
    cases readBounded bound s <;> simp
  rw [hrefused]
  constructor
  · intro hnone
    by_cases hdigits : ∀ c ∈ s, c.isDigit = true
    · have hnumeral : IsNumeral s _ := ⟨hs, hdigits, rfl⟩
      exact .inr ⟨_, hnumeral, Nat.not_lt.mp fun hlt => hnone _ ⟨hnumeral, hlt⟩⟩
    · left
      simpa using hdigits
  · rintro (⟨c, hc, hforeign⟩ | ⟨n, hnumeral, hle⟩) m ⟨hnumeral', hlt⟩
    · rw [hnumeral'.digits c hc] at hforeign
      exact absurd hforeign (by decide)
    · have hsame : n = m := hnumeral.value.symm.trans hnumeral'.value
      omega

end Bounded

/-! ### Other readers of digits -/

theorem baseDigit?_of_isDigit {c : Char} (h : c.isDigit = true) :
    baseDigit? 10 c = digitValue? c := by
  have hbounds := bounds_of_isDigit h
  have hlt := lt_of_digitValue? (show digitValue? c = some (c.toNat - 48) from if_pos hbounds)
  rw [baseDigit?, digitValue?, if_pos hbounds, if_pos hbounds, Option.filter_some,
    decide_eq_true hlt, if_pos rfl]
  rfl

theorem foldlM_baseDigit? {s : List Char} (h : ∀ c ∈ s, c.isDigit = true) (value : Nat) :
    s.foldlM (fun value c => (baseDigit? 10 c).map fun d => value * 10 + d) value =
      digitsValue value s := by
  induction s generalizing value with
  | nil => rfl
  | cons c s ih =>
    obtain ⟨hc, hs⟩ := List.forall_mem_cons.mp h
    rw [List.foldlM_cons, digitsValue, baseDigit?_of_isDigit hc]
    cases digitValue? c with
    | none => rfl
    | some d => exact ih hs _

theorem baseValue?_decimal (n : Nat) : baseValue? 10 (decimal n) = some n := by
  rw [baseValue?, if_neg (decimal_ne_nil n), foldlM_baseDigit? fun _ => isDigit_of_mem_decimal,
    digitsValue_decimal]

theorem ne_of_mem_decimal {n : Nat} {c d : Char} (h : c ∈ decimal n) (hd : d.isDigit = false) :
    c ≠ d := by
  rintro rfl
  exact absurd (isDigit_of_mem_decimal h) (hd ▸ Bool.false_ne_true)

theorem decimal_ne_cons (n : Nat) {c : Char} (hc : c.isDigit = false) (rest : List Char) :
    decimal n ≠ c :: rest :=
  fun h => ne_of_mem_decimal (h ▸ List.mem_cons_self) hc rfl

theorem eq_zero_of_decimal {n : Nat} {rest : List Char} (h : decimal n = '0' :: rest) :
    n = 0 := by
  rw [decimal_eq] at h
  induction n using Nat.strongRecOn generalizing rest with
  | ind n ih =>
    rw [Nat.toDigits_eq_if (by decide)] at h
    split at h
    · rename_i hlt
      have hzero : ∀ d < 10, Nat.digitChar d = '0' → d = 0 := by decide
      exact hzero n hlt (List.cons.inj h).1
    · rename_i hge
      obtain ⟨c, front, hfront⟩ := List.exists_cons_of_ne_nil
        (Nat.toDigits_ne_nil (n := n / 10) (b := 10))
      rw [hfront, List.cons_append] at h
      have hzero := ih (n / 10) (by omega) ((List.cons.inj h).1 ▸ hfront)
      omega

theorem readInt64?_decimal (n : Nat) :
    readInt64? 10 (decimal n) = if n < 2 ^ 63 then some (n : Int) else none := by
  have hsigned : signedValue? 10 (decimal n) = some (n : Int) := by
    rw [signedValue?, baseValue?_decimal]
    · rfl
    · exact decimal_ne_cons n (by decide)
    · exact decimal_ne_cons n (by decide)
  have hmin : Int64.minValue.toInt = -(2 ^ 63) := by decide
  have hmax : Int64.maxValue.toInt = 2 ^ 63 - 1 := by decide
  rw [readInt64?, hsigned, Option.filter_some, hmin, hmax]
  by_cases h : n < 2 ^ 63
  · rw [if_pos h, if_pos]
    simp only [Bool.and_eq_true, decide_eq_true_eq]
    omega
  · rw [if_neg h, if_neg]
    simp only [Bool.and_eq_true, decide_eq_true_eq]
    omega

end Text

end PlatformProxy
