import Mathlib.Data.UInt
import PlatformProxy.Text.Utf8

/-!
# Text through bytes and back

What is written as bytes reads as the text it was. A character takes one to four bytes. Its first
byte tells how many, and gives the range of the second that keeps long forms and surrogates out; a
character that is one of Lean's meets it, so the only thing to do is to put its value back together
from the bits of its bytes.

Nothing else is read. The ranges say no more than that: with a second byte in its range the value is
that of a character, and it takes as many bytes as were read.

## Main results

* `Utf8.decodeFrom_encodeChar` — one character
* `Utf8.decode_encode` — a text
* `Utf8.decode_eq_ok_iff` — and nothing else
* `Utf8.decodeLossy_encode` — a text, for a reader that replaces what is wrong
-/

namespace PlatformProxy

namespace Utf8

theorem encode_append (s t : List Char) : encode (s ++ t) = encode s ++ encode t :=
  List.flatMap_append

theorem length_encode_le (s : List Char) : (encode s).length ≤ 4 * s.length := by
  induction s with
  | nil => exact Nat.zero_le _
  | cons c s ih =>
    have hc : (String.utf8EncodeChar c).length ≤ 4 := by
      rw [String.length_utf8EncodeChar]
      exact Char.utf8Size_le_four c
    rw [encode, List.flatMap_cons, List.length_append, List.length_cons]
    rw [encode] at ih
    omega

/-- Only a character of ASCII has a byte of ASCII. -/
theorem toNat_of_mem_encodeChar {c : Char} {b : UInt8} (h : b ∈ String.utf8EncodeChar c)
    (hb : b.toNat < 128) : c.toNat = b.toNat := by
  have hlt : c.val.toNat < 4294967296 := c.val.toNat_lt
  show c.val.toNat = b.toNat
  rw [String.utf8EncodeChar] at h
  split_ifs at h <;> simp only [List.mem_cons, List.not_mem_nil, or_false] at h
  · rw [h, UInt8.toNat_ofNat']
    omega
  · rcases h with rfl | rfl <;> rw [UInt8.toNat_ofNat'] at hb <;> omega
  · rcases h with rfl | rfl | rfl <;> rw [UInt8.toNat_ofNat'] at hb <;> omega
  · rcases h with rfl | rfl | rfl | rfl <;> rw [UInt8.toNat_ofNat'] at hb <;> omega

theorem mem_of_mem_encode {s : List Char} {b : UInt8} (h : b ∈ encode s) (hb : b.toNat < 128) :
    Char.ofNat b.toNat ∈ s := by
  obtain ⟨c, hc, hmem⟩ := List.mem_flatMap.mp h
  rwa [← toNat_of_mem_encodeChar hmem hb, Char.ofNat_toNat]

/-! ### First bytes -/

theorem lead_of_lt {b : UInt8} (h : b.toNat < 128) : lead b = .single (Char.ofNat b.toNat) := by
  rw [lead, if_pos (UInt8.lt_iff_toNat_lt.mpr h)]

theorem lead_two {b : UInt8} (h : 194 ≤ b.toNat) (h' : b.toNat < 224) :
    lead b = .several ⟨1, 1, b.toNat % 32, 0x80, 0xBF⟩ := by
  simp only [lead, UInt8.lt_iff_toNat_lt, ← UInt8.toNat_inj, UInt8.toNat_ofNat]
  rw [if_neg (by omega), if_neg (by omega), if_pos (by omega)]

theorem lead_three {b : UInt8} (h : 224 ≤ b.toNat) (h' : b.toNat < 240) :
    lead b = .several ⟨1, 2, b.toNat % 16, if b.toNat = 224 then 0xA0 else 0x80,
      if b.toNat = 237 then 0x9F else 0xBF⟩ := by
  simp only [lead, UInt8.lt_iff_toNat_lt, ← UInt8.toNat_inj, UInt8.toNat_ofNat]
  rw [if_neg (by omega), if_neg (by omega), if_neg (by omega)]
  by_cases hlow : b.toNat = 224
  · simp [hlow]
  · by_cases hhigh : b.toNat = 237
    · simp [hhigh]
    · simp [hlow, hhigh, h']

theorem lead_four {b : UInt8} (h : 240 ≤ b.toNat) (h' : b.toNat < 245) :
    lead b = .several ⟨1, 3, b.toNat % 8, if b.toNat = 240 then 0x90 else 0x80,
      if b.toNat = 244 then 0x8F else 0xBF⟩ := by
  simp only [lead, UInt8.lt_iff_toNat_lt, ← UInt8.toNat_inj, UInt8.toNat_ofNat]
  rw [if_neg (by omega), if_neg (by omega), if_neg (by omega), if_neg (by omega),
    if_neg (by omega), if_neg (by omega)]
  by_cases hlow : b.toNat = 240
  · simp [hlow]
  · by_cases hhigh : b.toNat = 244
    · simp [hhigh]
    · simp [hlow, hhigh]
      omega

/-! ### The bytes behind them -/

variable {length seen needed value : Nat} {low high : UInt8} {acc : List Char} {rest : Bytes}

theorem decodeFrom_next {b : UInt8} (hlow : low ≤ b) (hhigh : b ≤ high) (hneeded : 1 < needed) :
    decodeFrom length acc (some ⟨seen, needed, value, low, high⟩) (b :: rest) =
      decodeFrom length acc
        (some ⟨seen + 1, needed - 1, value * 64 + b.toNat % 64, 0x80, 0xBF⟩) rest := by
  rw [decodeFrom]
  dsimp only
  rw [if_pos ⟨hlow, hhigh⟩, if_neg (Nat.not_le.mpr hneeded)]

theorem decodeFrom_last {b : UInt8} (hlow : low ≤ b) (hhigh : b ≤ high) (hneeded : needed ≤ 1) :
    decodeFrom length acc (some ⟨seen, needed, value, low, high⟩) (b :: rest) =
      decodeFrom (length + seen + 1) (Char.ofNat (value * 64 + b.toNat % 64) :: acc) none rest := by
  rw [decodeFrom]
  dsimp only
  rw [if_pos ⟨hlow, hhigh⟩, if_pos hneeded]

theorem decodeFrom_several {b : UInt8} {p : Pending} (h : lead b = .several p) :
    decodeFrom length acc none (b :: rest) = decodeFrom length acc (some p) rest := by
  rw [decodeFrom, h]

/-- A byte that goes on with a character. -/
theorem tail_bounds (n : Nat) :
    (0x80 : UInt8) ≤ UInt8.ofNat (n % 64 + 128) ∧ UInt8.ofNat (n % 64 + 128) ≤ 0xBF := by
  simp only [UInt8.le_iff_toNat_le, UInt8.toNat_ofNat', UInt8.toNat_ofNat]
  omega

theorem toNat_tail (n : Nat) : (UInt8.ofNat (n % 64 + 128)).toNat % 64 = n % 64 := by
  rw [UInt8.toNat_ofNat']
  omega

/-! ### The bytes of a character -/

section Character

variable {v : Nat}

theorem decodeFrom_two (hge : 128 ≤ v) (hlt : v < 2048) :
    decodeFrom length acc none
        (UInt8.ofNat (v / 64 % 32 + 192) :: UInt8.ofNat (v % 64 + 128) :: rest) =
      decodeFrom (length + 2) (Char.ofNat v :: acc) none rest := by
  have hb : (UInt8.ofNat (v / 64 % 32 + 192)).toNat = v / 64 % 32 + 192 := by
    rw [UInt8.toNat_ofNat']
    omega
  have hvalue : (v / 64 % 32 + 192) % 32 * 64 + v % 64 = v := by omega
  have ht := tail_bounds v
  rw [decodeFrom_several (lead_two (by omega) (by omega)),
    decodeFrom_last ht.1 ht.2 (Nat.le_refl 1), toNat_tail, hb, hvalue]

/-- The second of three bytes is in the range that the first gives it, as the character is no
surrogate. -/
theorem second_bounds_three (hge : 2048 ≤ v) (hlt : v < 65536)
    (hvalid : v < 55296 ∨ 57343 < v) :
    (if v / 4096 % 16 + 224 = 224 then 0xA0 else 0x80 : UInt8) ≤ UInt8.ofNat (v / 64 % 64 + 128) ∧
      UInt8.ofNat (v / 64 % 64 + 128) ≤ if v / 4096 % 16 + 224 = 237 then 0x9F else 0xBF := by
  constructor <;> split <;>
    simp only [UInt8.le_iff_toNat_le, UInt8.toNat_ofNat', UInt8.toNat_ofNat] <;> omega

theorem decodeFrom_three (hge : 2048 ≤ v) (hlt : v < 65536) (hvalid : v < 55296 ∨ 57343 < v) :
    decodeFrom length acc none
        (UInt8.ofNat (v / 4096 % 16 + 224) :: UInt8.ofNat (v / 64 % 64 + 128) ::
          UInt8.ofNat (v % 64 + 128) :: rest) =
      decodeFrom (length + 3) (Char.ofNat v :: acc) none rest := by
  have hb : (UInt8.ofNat (v / 4096 % 16 + 224)).toNat = v / 4096 % 16 + 224 := by
    rw [UInt8.toNat_ofNat']
    omega
  have hvalue : ((v / 4096 % 16 + 224) % 16 * 64 + v / 64 % 64) * 64 + v % 64 = v := by omega
  have hsecond := second_bounds_three hge hlt hvalid
  have ht := tail_bounds v
  rw [decodeFrom_several (lead_three (by omega) (by omega)), hb,
    decodeFrom_next hsecond.1 hsecond.2 (by decide),
    decodeFrom_last ht.1 ht.2 (Nat.le_refl 1), toNat_tail, toNat_tail, hvalue]

/-- And that of four, as there are no characters beyond the last. -/
theorem second_bounds_four (hge : 65536 ≤ v) (hlt : v < 1114112) :
    (if v / 262144 % 8 + 240 = 240 then 0x90 else 0x80 : UInt8) ≤
        UInt8.ofNat (v / 4096 % 64 + 128) ∧
      UInt8.ofNat (v / 4096 % 64 + 128) ≤ if v / 262144 % 8 + 240 = 244 then 0x8F else 0xBF := by
  constructor <;> split <;>
    simp only [UInt8.le_iff_toNat_le, UInt8.toNat_ofNat', UInt8.toNat_ofNat] <;> omega

theorem decodeFrom_four (hge : 65536 ≤ v) (hlt : v < 1114112) :
    decodeFrom length acc none
        (UInt8.ofNat (v / 262144 % 8 + 240) :: UInt8.ofNat (v / 4096 % 64 + 128) ::
          UInt8.ofNat (v / 64 % 64 + 128) :: UInt8.ofNat (v % 64 + 128) :: rest) =
      decodeFrom (length + 4) (Char.ofNat v :: acc) none rest := by
  have hb : (UInt8.ofNat (v / 262144 % 8 + 240)).toNat = v / 262144 % 8 + 240 := by
    rw [UInt8.toNat_ofNat']
    omega
  have hvalue : (((v / 262144 % 8 + 240) % 8 * 64 + v / 4096 % 64) * 64 + v / 64 % 64) * 64 +
      v % 64 = v := by
    omega
  have hsecond := second_bounds_four hge hlt
  have ht := tail_bounds (v / 64)
  have ht' := tail_bounds v
  rw [decodeFrom_several (lead_four (by omega) (by omega)), hb,
    decodeFrom_next hsecond.1 hsecond.2 (by decide), decodeFrom_next ht.1 ht.2 (by decide),
    decodeFrom_last ht'.1 ht'.2 (Nat.le_refl 1), toNat_tail, toNat_tail, toNat_tail, hvalue]

end Character

/-- **The bytes of a character read as the character.** -/
theorem decodeFrom_encodeChar (length : Nat) (acc : List Char) (c : Char) (rest : Bytes) :
    decodeFrom length acc none (String.utf8EncodeChar c ++ rest) =
      decodeFrom (length + (String.utf8EncodeChar c).length) (c :: acc) none rest := by
  have hvalid : c.toNat < 55296 ∨ 57343 < c.toNat ∧ c.toNat < 1114112 := c.valid
  have hc : Char.ofNat c.toNat = c := Char.ofNat_toNat c
  generalize hv : c.toNat = v at hvalid hc
  have hv' : c.val.toNat = v := hv
  subst hc
  simp only [String.utf8EncodeChar, hv']
  split_ifs with h₁ h₂ h₃
  · have hb : (UInt8.ofNat v).toNat = v := UInt8.toNat_ofNat_of_lt' (by simp [UInt8.size]; omega)
    rw [List.singleton_append, decodeFrom, lead_of_lt (by omega), hb]
    rfl
  · exact decodeFrom_two (by omega) (by omega)
  · exact decodeFrom_three (by omega) (by omega) (by omega)
  · exact decodeFrom_four (by omega) (by omega)

/-- **The bytes of a text read as the text**, whatever comes behind them. -/
theorem decodeFrom_encode_append (length : Nat) (acc s : List Char) (rest : Bytes) :
    decodeFrom length acc none (encode s ++ rest) =
      decodeFrom (length + (encode s).length) (s.reverse ++ acc) none rest := by
  induction s generalizing length acc with
  | nil => rfl
  | cons c s ih =>
    rw [encode, List.flatMap_cons, List.append_assoc, decodeFrom_encodeChar]
    show decodeFrom _ _ none (encode s ++ rest) = _
    rw [ih, List.length_append, Nat.add_assoc, List.reverse_cons, List.append_assoc]
    rfl

theorem decode_encode (s : List Char) : decode (encode s) = .ok s := by
  have h := decodeFrom_encode_append 0 [] s []
  rw [List.append_nil, List.append_nil, decodeFrom, List.reverse_reverse] at h
  exact h

/-! ### What reads as a text -/

theorem lead_invalid {b : UInt8} (h : 128 ≤ b.toNat ∧ b.toNat < 194 ∨ 245 ≤ b.toNat) :
    lead b = .invalid := by
  simp only [lead, UInt8.lt_iff_toNat_lt, ← UInt8.toNat_inj, UInt8.toNat_ofNat]
  rw [if_neg (by omega)]
  rcases h with h | h
  · rw [if_pos (by omega)]
  · rw [if_neg (by omega), if_neg (by omega), if_neg (by omega), if_neg (by omega),
      if_neg (by omega), if_neg (by omega), if_neg (by omega), if_neg (by omega)]

section Sound

variable {s : List Char} {bytes : Bytes} {b b₁ b₂ b₃ : UInt8}

/-- A character that has begun goes on with a byte in its range. -/
theorem exists_of_decodeFrom_some
    (h : decodeFrom length acc (some ⟨seen, needed, value, low, high⟩) bytes = .ok s) :
    ∃ b rest, bytes = b :: rest ∧ low ≤ b ∧ b ≤ high := by
  cases bytes with
  | nil => exact absurd h nofun
  | cons b rest =>
    refine ⟨b, rest, rfl, ?_⟩
    rw [decodeFrom] at h
    dsimp only at h
    by_contra hrange
    rw [if_neg hrange] at h
    exact absurd h nofun

theorem exists_next (hneeded : 1 < needed)
    (h : decodeFrom length acc (some ⟨seen, needed, value, low, high⟩) bytes = .ok s) :
    ∃ b rest, bytes = b :: rest ∧ (low ≤ b ∧ b ≤ high) ∧
      decodeFrom length acc
        (some ⟨seen + 1, needed - 1, value * 64 + b.toNat % 64, 0x80, 0xBF⟩) rest = .ok s := by
  obtain ⟨b, rest, rfl, hlow, hhigh⟩ := exists_of_decodeFrom_some h
  rw [decodeFrom_next hlow hhigh hneeded] at h
  exact ⟨b, rest, rfl, ⟨hlow, hhigh⟩, h⟩

theorem exists_last (hneeded : needed ≤ 1)
    (h : decodeFrom length acc (some ⟨seen, needed, value, low, high⟩) bytes = .ok s) :
    ∃ b rest, bytes = b :: rest ∧ (low ≤ b ∧ b ≤ high) ∧
      decodeFrom (length + seen + 1) (Char.ofNat (value * 64 + b.toNat % 64) :: acc) none rest =
        .ok s := by
  obtain ⟨b, rest, rfl, hlow, hhigh⟩ := exists_of_decodeFrom_some h
  rw [decodeFrom_last hlow hhigh hneeded] at h
  exact ⟨b, rest, rfl, ⟨hlow, hhigh⟩, h⟩

theorem toNat_bounds (h : (0x80 : UInt8) ≤ b ∧ b ≤ 0xBF) : 128 ≤ b.toNat ∧ b.toNat ≤ 191 := by
  simpa only [UInt8.le_iff_toNat_le, UInt8.toNat_ofNat] using h

/-- The range of the second byte of three keeps out long forms and surrogates. -/
theorem toNat_bounds_three (h : (if b.toNat = 224 then 0xA0 else 0x80 : UInt8) ≤ b₁ ∧
    b₁ ≤ if b.toNat = 237 then 0x9F else 0xBF) : 128 ≤ b₁.toNat ∧ b₁.toNat ≤ 191 ∧
      (b.toNat = 224 → 160 ≤ b₁.toNat) ∧ (b.toNat = 237 → b₁.toNat ≤ 159) := by
  obtain ⟨hlow, hhigh⟩ := h
  split at hlow <;> split at hhigh <;>
    simp only [UInt8.le_iff_toNat_le, UInt8.toNat_ofNat] at hlow hhigh <;> omega

/-- And that of four, long forms and what is beyond the last character. -/
theorem toNat_bounds_four (h : (if b.toNat = 240 then 0x90 else 0x80 : UInt8) ≤ b₁ ∧
    b₁ ≤ if b.toNat = 244 then 0x8F else 0xBF) : 128 ≤ b₁.toNat ∧ b₁.toNat ≤ 191 ∧
      (b.toNat = 240 → 144 ≤ b₁.toNat) ∧ (b.toNat = 244 → b₁.toNat ≤ 143) := by
  obtain ⟨hlow, hhigh⟩ := h
  split at hlow <;> split at hhigh <;>
    simp only [UInt8.le_iff_toNat_le, UInt8.toNat_ofNat] at hlow hhigh <;> omega

theorem ofNat_eq (b : UInt8) {n : Nat} (h : n = b.toNat) : UInt8.ofNat n = b := by
  rw [h, UInt8.ofNat_toNat]

theorem val_ofNat {v : Nat} (hv : v.isValidChar) : (Char.ofNat v).val.toNat = v := by
  rw [Char.ofNat, dif_pos hv]
  rfl

section Encoded

variable {v : Nat}

theorem encodeChar_one (h : b.toNat < 128) :
    String.utf8EncodeChar (Char.ofNat b.toNat) = [b] := by
  have hvalid : b.toNat.isValidChar := .inl (by omega)
  simp only [String.utf8EncodeChar, val_ofNat hvalid]
  rw [if_pos (by omega), ofNat_eq b rfl]

theorem encodeChar_two (hv : v = b.toNat % 32 * 64 + b₁.toNat % 64) (hge : 194 ≤ b.toNat)
    (hlt : b.toNat < 224) (hb₁ : 128 ≤ b₁.toNat ∧ b₁.toNat ≤ 191) :
    String.utf8EncodeChar (Char.ofNat v) = [b, b₁] := by
  have hvalid : v.isValidChar := .inl (by omega)
  simp only [String.utf8EncodeChar, val_ofNat hvalid]
  rw [if_neg (by omega), if_pos (by omega), ofNat_eq b (by omega), ofNat_eq b₁ (by omega)]

theorem encodeChar_three (hv : v = (b.toNat % 16 * 64 + b₁.toNat % 64) * 64 + b₂.toNat % 64)
    (hge : 224 ≤ b.toNat) (hlt : b.toNat < 240)
    (hb₁ : 128 ≤ b₁.toNat ∧ b₁.toNat ≤ 191 ∧ (b.toNat = 224 → 160 ≤ b₁.toNat) ∧
      (b.toNat = 237 → b₁.toNat ≤ 159))
    (hb₂ : 128 ≤ b₂.toNat ∧ b₂.toNat ≤ 191) :
    String.utf8EncodeChar (Char.ofNat v) = [b, b₁, b₂] := by
  have hvalid : v.isValidChar := by
    rw [Nat.isValidChar]
    omega
  simp only [String.utf8EncodeChar, val_ofNat hvalid]
  rw [if_neg (by omega), if_neg (by omega), if_pos (by omega), ofNat_eq b (by omega),
    ofNat_eq b₁ (by omega), ofNat_eq b₂ (by omega)]

theorem encodeChar_four
    (hv : v = ((b.toNat % 8 * 64 + b₁.toNat % 64) * 64 + b₂.toNat % 64) * 64 + b₃.toNat % 64)
    (hge : 240 ≤ b.toNat) (hlt : b.toNat < 245)
    (hb₁ : 128 ≤ b₁.toNat ∧ b₁.toNat ≤ 191 ∧ (b.toNat = 240 → 144 ≤ b₁.toNat) ∧
      (b.toNat = 244 → b₁.toNat ≤ 143))
    (hb₂ : 128 ≤ b₂.toNat ∧ b₂.toNat ≤ 191) (hb₃ : 128 ≤ b₃.toNat ∧ b₃.toNat ≤ 191) :
    String.utf8EncodeChar (Char.ofNat v) = [b, b₁, b₂, b₃] := by
  have hvalid : v.isValidChar := by
    rw [Nat.isValidChar]
    omega
  simp only [String.utf8EncodeChar, val_ofNat hvalid]
  rw [if_neg (by omega), if_neg (by omega), if_neg (by omega), ofNat_eq b (by omega),
    ofNat_eq b₁ (by omega), ofNat_eq b₂ (by omega), ofNat_eq b₃ (by omega)]

end Encoded

/-- **A reading that goes well begins with the bytes of a character.** -/
theorem exists_char_of_decodeFrom (h : decodeFrom length acc none (b :: rest) = .ok s) :
    ∃ c rest' length', b :: rest = String.utf8EncodeChar c ++ rest' ∧
      decodeFrom length' (c :: acc) none rest' = .ok s := by
  have hkind : b.toNat < 128 ∨ 194 ≤ b.toNat ∧ b.toNat < 224 ∨ 224 ≤ b.toNat ∧ b.toNat < 240 ∨
      240 ≤ b.toNat ∧ b.toNat < 245 ∨
      (128 ≤ b.toNat ∧ b.toNat < 194 ∨ 245 ≤ b.toNat) := by
    omega
  rcases hkind with hone | ⟨hge, hlt⟩ | ⟨hge, hlt⟩ | ⟨hge, hlt⟩ | hinvalid
  · rw [decodeFrom, lead_of_lt hone] at h
    exact ⟨_, rest, _, by rw [encodeChar_one hone]; rfl, h⟩
  · rw [decodeFrom_several (lead_two hge hlt)] at h
    obtain ⟨b₁, rest, rfl, hb₁, h⟩ := exists_last (Nat.le_refl 1) h
    exact ⟨_, rest, _, by rw [encodeChar_two rfl hge hlt (toNat_bounds hb₁)]; rfl, h⟩
  · rw [decodeFrom_several (lead_three hge hlt)] at h
    obtain ⟨b₁, rest, rfl, hb₁, h⟩ := exists_next (by decide) h
    obtain ⟨b₂, rest, rfl, hb₂, h⟩ := exists_last (by decide) h
    refine ⟨_, rest, _, ?_, h⟩
    rw [encodeChar_three rfl hge hlt (toNat_bounds_three hb₁) (toNat_bounds hb₂)]
    rfl
  · rw [decodeFrom_several (lead_four hge hlt)] at h
    obtain ⟨b₁, rest, rfl, hb₁, h⟩ := exists_next (by decide) h
    obtain ⟨b₂, rest, rfl, hb₂, h⟩ := exists_next (by decide) h
    obtain ⟨b₃, rest, rfl, hb₃, h⟩ := exists_last (by decide) h
    refine ⟨_, rest, _, ?_, h⟩
    rw [encodeChar_four rfl hge hlt (toNat_bounds_four hb₁) (toNat_bounds hb₂)
      (toNat_bounds hb₃)]
    rfl
  · rw [decodeFrom, lead_invalid hinvalid] at h
    exact absurd h nofun

theorem exists_of_decodeFrom (h : decodeFrom length acc none bytes = .ok s) :
    ∃ t, s = acc.reverse ++ t ∧ bytes = encode t := by
  induction hn : bytes.length using Nat.strongRecOn generalizing length acc bytes with
  | ind n ih =>
    cases bytes with
    | nil =>
      obtain rfl := Except.ok.inj h
      exact ⟨[], (List.append_nil _).symm, rfl⟩
    | cons b rest =>
      -- A character takes at least one byte.
      obtain ⟨c, rest', length', hbytes, h⟩ := exists_char_of_decodeFrom h
      have hpos := c.utf8Size_pos
      have hsize := congrArg List.length hbytes
      rw [List.length_append, String.length_utf8EncodeChar, hn] at hsize
      obtain ⟨t, rfl, rfl⟩ := ih rest'.length (by omega) h rfl
      refine ⟨c :: t, by simp, ?_⟩
      rw [hbytes]
      rfl

/-- **The bytes of a text read as the text, and no other bytes are read.** -/
theorem decode_eq_ok_iff : decode bytes = .ok s ↔ bytes = encode s := by
  constructor
  · intro h
    obtain ⟨t, rfl, hbytes⟩ := exists_of_decodeFrom h
    exact hbytes
  · rintro rfl
    exact decode_encode s

end Sound

/-! ### Lossy reading -/

/-- Where nothing has to be replaced, lossy reading is reading. -/
theorem decodeLossyFrom_of_decodeFrom {bytes : Bytes} {acc s : List Char}
    {pending : Option Pending} (h : decodeFrom length acc pending bytes = .ok s) :
    decodeLossyFrom acc pending bytes = s := by
  induction bytes generalizing length acc pending with
  | nil =>
    cases pending with
    | none => exact Except.ok.inj h
    | some p => exact absurd h nofun
  | cons b rest ih =>
    cases pending with
    | none =>
      rw [decodeFrom] at h
      rw [decodeLossyFrom]
      cases hlead : lead b with
      | single c =>
        rw [hlead] at h
        exact ih h
      | several p =>
        rw [hlead] at h
        exact ih h
      | invalid =>
        rw [hlead] at h
        exact absurd h nofun
    | some p =>
      rw [decodeFrom] at h
      rw [decodeLossyFrom]
      dsimp only at h ⊢
      by_cases hrange : p.low ≤ b ∧ b ≤ p.high
      · rw [if_pos hrange] at h ⊢
        by_cases hlast : p.needed ≤ 1
        · rw [if_pos hlast] at h ⊢
          exact ih h
        · rw [if_neg hlast] at h ⊢
          exact ih h
      · rw [if_neg hrange] at h
        exact absurd h nofun

theorem decodeLossy_encode (s : List Char) : decodeLossy (encode s) = s :=
  decodeLossyFrom_of_decodeFrom (decode_encode s)

end Utf8

end PlatformProxy
