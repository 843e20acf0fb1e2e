import Mathlib.Data.List.TakeDrop
import PlatformProxy.Floating.Text
import PlatformProxy.Text.Lowercase

/-!
# What numbers are written with

A text with a character that no number is written with is no number, whichever way it is read.
Letters count as such characters, as they are digits of larger bases, exponents and the words for
special numbers.

## Main definitions

* `Floating.isNumberChar` — letters, digits, signs and points

## Main results

* `Floating.read?_eq_none_of_mem`, `Text.readInt64?_eq_none_of_mem` — texts that are no numbers
* `Text.toLower_mem_lower` — lower-casing keeps the ASCII characters that are no letters
-/

namespace PlatformProxy

namespace Text

theorem isAlphanum_iff {c : Char} : c.isAlphanum = true ↔
    ((65 ≤ c.toNat ∧ c.toNat ≤ 90) ∨ (97 ≤ c.toNat ∧ c.toNat ≤ 122)) ∨
      (48 ≤ c.toNat ∧ c.toNat ≤ 57) := by
  have halpha : c.isAlpha = (c.isUpper || c.isLower) := rfl
  have hupper : c.isUpper = decide (c.val ≥ 65 ∧ c.val ≤ 90) := rfl
  have hlower : c.isLower = (decide (c.val ≥ 97) && decide (c.val ≤ 122)) := rfl
  simp only [Char.isAlphanum, halpha, hupper, hlower, Char.isDigit, Bool.or_eq_true,
    Bool.and_eq_true, decide_eq_true_eq, UInt32.le_iff_toNat_le, ge_iff_le]
  rfl

theorem le_iff_toNat {a b : Char} : a ≤ b ↔ a.toNat ≤ b.toNat := UInt32.le_iff_toNat_le

theorem baseDigit?_eq_none {base : Nat} {c : Char} (h : c.isAlphanum = false) :
    baseDigit? base c = none := by
  have hbounds := mt isAlphanum_iff.mpr (Bool.eq_false_iff.mp h)
  simp only [baseDigit?, le_iff_toNat, Char.reduceToNat]
  rw [if_neg (by omega), if_neg (by omega), if_neg (by omega)]
  rfl

theorem digitValue?_eq_none {c : Char} (h : c.isAlphanum = false) : digitValue? c = none := by
  have hbounds := mt isAlphanum_iff.mpr (Bool.eq_false_iff.mp h)
  simp only [digitValue?, le_iff_toNat, Char.reduceToNat]
  exact if_neg (by omega)

theorem toLower_eq_self {c : Char} (h : c.isAlphanum = false) : c.toLower = c := by
  have hbounds := mt isAlphanum_iff.mpr (Bool.eq_false_iff.mp h)
  refine dif_neg fun hupper => hbounds (.inl (.inl ?_))
  exact ⟨UInt32.le_iff_toNat_le.mp hupper.1, UInt32.le_iff_toNat_le.mp hupper.2⟩

theorem foldlM_eq_none_of_mem {α β : Type} {f : β → α → Option β} {s : List α} {a : α}
    (ha : a ∈ s) (hnone : ∀ b, f b a = none) (b : β) : s.foldlM f b = none := by
  induction s generalizing b with
  | nil => exact absurd ha List.not_mem_nil
  | cons a' s ih =>
    rw [List.foldlM_cons]
    rcases List.mem_cons.mp ha with rfl | ha
    · rw [hnone]
      rfl
    · cases hf : f b a' with
      | none => rfl
      | some b' => exact ih ha b'

theorem baseValue?_eq_none_of_mem {base : Nat} {s : List Char} {c : Char} (hc : c ∈ s)
    (hdigit : baseDigit? base c = none) : baseValue? base s = none := by
  rw [baseValue?, if_neg (List.ne_nil_of_mem hc)]
  exact foldlM_eq_none_of_mem hc (fun _ => by rw [hdigit]; rfl) 0

theorem mem_lowerPieces {pieces : List (List Char)} {before s : List Char} {p : List Char}
    (h : p ∈ pieces) : p ∈ lowerPieces pieces before s := by
  induction s generalizing pieces before with
  | nil => exact h
  | cons c s ih => exact ih (List.mem_cons_of_mem _ h)

theorem lowerChar_mem_lowerPieces {pieces : List (List Char)} {before s : List Char} {c : Char}
    (hc : c ∈ s) (hsigma : c ≠ 'Σ') : lowerChar c ∈ lowerPieces pieces before s := by
  induction s generalizing pieces before with
  | nil => exact absurd hc List.not_mem_nil
  | cons c' s ih =>
    rw [lowerPieces]
    rcases List.mem_cons.mp hc with rfl | hc
    · rw [if_neg hsigma]
      exact mem_lowerPieces List.mem_cons_self
    · exact ih hc

theorem toLower_mem_lower {s : List Char} {c : Char} (hc : c ∈ s) (hascii : c.toNat < 0x80) :
    c.toLower ∈ lower s := by
  have hsigma : c ≠ 'Σ' := by
    rintro rfl
    exact absurd hascii (by decide)
  have hmem : lowerChar c ∈ lowerPieces [] [] s := lowerChar_mem_lowerPieces hc hsigma
  rw [lowerChar, if_pos hascii] at hmem
  exact List.mem_flatten.mpr ⟨_, List.mem_reverse.mpr hmem, List.mem_singleton_self _⟩

end Text

namespace Floating

/-- Characters that numbers are written with: letters, digits, signs and points. -/
def isNumberChar (c : Char) : Bool := c.isAlphanum || c = '+' || c = '-' || c = '.'

theorem isAlphanum_of_isNumberChar {c : Char} (h : isNumberChar c = false) :
    c.isAlphanum = false ∧ c ≠ '+' ∧ c ≠ '-' ∧ c ≠ '.' := by
  simpa [isNumberChar, and_assoc] using h

theorem spanDigits_eq (s : List Char) : s = (spanDigits s).1 ++ (spanDigits s).2 := by
  rw [spanDigits, List.span_eq_takeWhile_dropWhile]
  exact List.takeWhile_append_dropWhile.symm

theorem mem_spanDigits {s : List Char} {c : Char} (hc : c ∈ s)
    (hdigit : Text.digitValue? c = none) : c ∈ (spanDigits s).2 := by
  rw [spanDigits_eq s] at hc
  rcases List.mem_append.mp hc with hc | hc
  · rw [spanDigits, List.span_eq_takeWhile_dropWhile] at hc
    have htake := List.all_eq_true.mp List.all_takeWhile c hc
    rw [hdigit] at htake
    exact absurd htake nofun
  · exact hc

/-- A sign in front of a text, and the rest. -/
def signAndBody : List Char → Bool × List Char
  | '-' :: body => (true, body)
  | '+' :: body => (false, body)
  | body => (false, body)

theorem mem_signAndBody {s : List Char} {c : Char} (hc : c ∈ s) (hplus : c ≠ '+')
    (hminus : c ≠ '-') : c ∈ (signAndBody s).2 := by
  unfold signAndBody
  split
  · exact List.mem_of_ne_of_mem hminus hc
  · exact List.mem_of_ne_of_mem hplus hc
  · exact hc

theorem readExponent?_cons (c : Char) (rest : List Char) : readExponent? (c :: rest) =
    if c = 'e' ∨ c = 'E' then
      if (signAndBody rest).2 ≠ [] ∧
          (signAndBody rest).2.all (fun d => (Text.digitValue? d).isSome) then
        some (if (signAndBody rest).1 then -(digitsToNat (signAndBody rest).2 : Int)
          else digitsToNat (signAndBody rest).2)
      else none
    else none := rfl

theorem read?_eq (f : Format) (s : List Char) : read? f s =
    let word := String.ofList ((signAndBody s).2.map Char.toLower)
    if word = "inf" ∨ word = "infinity" then some (infinity f (signAndBody s).1)
    else if word = "nan" then some (nan f)
    else (readDecimal? (signAndBody s).2).map fun d =>
      ofDecimal f (signAndBody s).1 d.digits d.exponent := rfl

theorem readExponent?_eq_none_of_mem {s : List Char} {c : Char} (hc : c ∈ s)
    (hnumber : isNumberChar c = false) : readExponent? s = none := by
  obtain ⟨halpha, hplus, hminus, -⟩ := isAlphanum_of_isNumberChar hnumber
  cases s with
  | nil => exact absurd hc List.not_mem_nil
  | cons e rest =>
    rw [readExponent?_cons]
    split
    · rename_i he
      have hne : c ≠ e := by
        rintro rfl
        rcases he with rfl | rfl <;> exact absurd halpha nofun
      have hmem := mem_signAndBody (List.mem_of_ne_of_mem hne hc) hplus hminus
      refine if_neg fun hdigits => ?_
      have hdigit := List.all_eq_true.mp hdigits.2 c hmem
      rw [Text.digitValue?_eq_none halpha] at hdigit
      exact absurd hdigit nofun
    · rfl

/-- A number is written with letters, digits, signs and points. -/
theorem readDecimal?_eq_none_of_mem {s : List Char} {c : Char} (hc : c ∈ s)
    (hnumber : isNumberChar c = false) : readDecimal? s = none := by
  obtain ⟨halpha, -, -, hpoint⟩ := isAlphanum_of_isNumberChar hnumber
  have hdigit := Text.digitValue?_eq_none halpha
  have hrest := mem_spanDigits hc hdigit
  rw [readDecimal?]
  dsimp only
  split
  · rename_i rest hpoint'
    rw [hpoint'] at hrest
    have hmem := mem_spanDigits (List.mem_of_ne_of_mem hpoint hrest) hdigit
    rw [readExponent?_eq_none_of_mem hmem hnumber, Option.map_none, ite_self]
  · rw [readExponent?_eq_none_of_mem hrest hnumber, Option.map_none, ite_self]

theorem read?_eq_none_of_mem {f : Format} {s : List Char} {c : Char} (hc : c ∈ s)
    (hnumber : isNumberChar c = false) : read? f s = none := by
  obtain ⟨halpha, hplus, hminus, -⟩ := isAlphanum_of_isNumberChar hnumber
  have hmem := mem_signAndBody hc hplus hminus
  have hword : ∀ word : String, c ∉ word.toList →
      String.ofList ((signAndBody s).2.map Char.toLower) ≠ word := by
    rintro _ hword rfl
    rw [String.toList_ofList] at hword
    exact hword (List.mem_map.mpr ⟨c, hmem, Text.toLower_eq_self halpha⟩)
  have hletters : ∀ word : String, word.toList.all Char.isAlphanum = true → c ∉ word.toList := by
    intro word hall hc
    rw [List.all_eq_true.mp hall c hc] at halpha
    exact absurd halpha nofun
  rw [read?_eq]
  dsimp only
  rw [if_neg, if_neg, readDecimal?_eq_none_of_mem hmem hnumber]
  · rfl
  · exact hword _ (hletters _ (by decide))
  · rintro (hinf | hinf)
    · exact hword _ (hletters _ (by decide)) hinf
    · exact hword _ (hletters _ (by decide)) hinf

end Floating

namespace Text

theorem readInt64?_eq_none_of_mem {base : Nat} {s : List Char} {c : Char} (hc : c ∈ s)
    (hnumber : Floating.isNumberChar c = false) : readInt64? base s = none := by
  obtain ⟨halpha, hplus, hminus, -⟩ := Floating.isAlphanum_of_isNumberChar hnumber
  have hdigit : baseDigit? base c = none := baseDigit?_eq_none halpha
  unfold readInt64? signedValue?
  split
  · rw [baseValue?_eq_none_of_mem (List.mem_of_ne_of_mem hminus hc) hdigit]
    rfl
  · rw [baseValue?_eq_none_of_mem (List.mem_of_ne_of_mem hplus hc) hdigit]
    rfl
  · rw [baseValue?_eq_none_of_mem hc hdigit]
    rfl

end Text

end PlatformProxy
