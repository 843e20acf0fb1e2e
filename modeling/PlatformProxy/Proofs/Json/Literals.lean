import PlatformProxy.Json.Reader
import PlatformProxy.Proofs.Text.Numeral
import PlatformProxy.Proofs.Text.Utf8

/-!
# Literals through text and back

What is written as a string reads as that string, and so do integers. A string is closed by its
quote, so that anything may follow. A number is not: it ends before the first byte that does not
continue it, and reads as itself only in front of such a byte.

Most characters of a string stand for themselves, as the bytes of their encoding. None of these is
a quote, a backslash or a control character, since only ASCII characters have ASCII bytes. The
others are written as escapes.

## Main definitions

* `Json.endsNumber` — what follows a number does not continue it

## Main results

* `Json.readWord_encode` — words
* `Json.readNumber_natural`, `Json.readNumber_negative` — integers
* `Json.readString_encode` — strings
-/

namespace PlatformProxy

namespace Json

/-! ### ASCII -/

theorem encode_cons {c : Char} (h : c.toNat < 128) (s : List Char) :
    Utf8.encode (c :: s) = byte c :: Utf8.encode s := by
  have hsize : c.utf8Size = 1 :=
    Char.utf8Size_eq_one_iff.mpr (UInt32.le_iff_toNat_le.mpr (Nat.le_of_lt_succ h))
  rw [Utf8.encode, List.flatMap_cons, String.utf8EncodeChar_eq_singleton hsize]
  rfl

def isAscii (s : List Char) : Bool := s.all fun c => c.toNat < 128

theorem isAscii_cons {c : Char} {s : List Char} :
    isAscii (c :: s) = true ↔ c.toNat < 128 ∧ isAscii s = true := by
  rw [isAscii, List.all_cons, Bool.and_eq_true, decide_eq_true_eq, isAscii]

theorem isAscii_append {s t : List Char} :
    isAscii (s ++ t) = true ↔ isAscii s = true ∧ isAscii t = true := by
  rw [isAscii, List.all_append, Bool.and_eq_true, isAscii, isAscii]

theorem encode_of_ascii {s : List Char} (h : isAscii s = true) :
    Utf8.encode s = s.map byte := by
  induction s with
  | nil => rfl
  | cons c s ih =>
    obtain ⟨hc, hs⟩ := isAscii_cons.mp h
    rw [encode_cons hc, ih hs, List.map_cons]

theorem readWord_encode {word : List Char} (h : isAscii word = true) (rest : Bytes) :
    readWord word (Utf8.encode word ++ rest) = .ok rest := by
  rw [encode_of_ascii h]
  clear h
  induction word with
  | nil => rfl
  | cons c word ih =>
    rw [List.map_cons, List.cons_append, readWord, if_pos rfl]
    exact ih

/-! ### Numbers -/

/-- What follows a number does not continue it. -/
def endsNumber : Bytes → Bool
  | [] => true
  | b :: _ => !(isDigit b || b = byte '.' || b = byte 'e' || b = byte 'E')

theorem digit?_byte {c : Char} (h : c.toNat < 128) : digit? (byte c) = Text.digitValue? c := by
  have hbyte : (byte c).toNat = c.toNat := UInt8.toNat_ofNat_of_lt' (Nat.lt_trans h (by decide))
  have hbounds : (0x30 ≤ byte c ∧ byte c ≤ 0x39) ↔ ('0' ≤ c ∧ c ≤ '9') := by
    rw [UInt8.le_iff_toNat_le, UInt8.le_iff_toNat_le, hbyte, Char.le_def, Char.le_def,
      UInt32.le_iff_toNat_le, UInt32.le_iff_toNat_le]
    exact Iff.rfl
  simp only [digit?, Text.digitValue?, hbounds, hbyte]
  rfl

theorem toNat_lt_of_isDigit {c : Char} (h : c.isDigit = true) : c.toNat < 128 :=
  have hle := UInt32.le_iff_toNat_le.mp (Char.le_def.mp (Text.bounds_of_isDigit h).2)
  Nat.lt_of_le_of_lt hle (by decide)

theorem isDigit_byte {c : Char} (h : c.isDigit = true) : isDigit (byte c) = true := by
  rw [isDigit, digit?_byte (toNat_lt_of_isDigit h), Text.digitValue?,
    if_pos (Text.bounds_of_isDigit h)]
  rfl

theorem startsWithDigit_of_endsNumber {rest : Bytes} (h : endsNumber rest = true) :
    startsWithDigit rest = false := by
  cases rest with
  | nil => rfl
  | cons b rest =>
    rw [startsWithDigit]
    simp only [endsNumber, Bool.not_eq_true', Bool.or_eq_false_iff] at h
    exact h.1.1.1

theorem readSignificand_of_end {rest : Bytes} (h : startsWithDigit rest = false)
    (value count : Nat) : readSignificand value count rest = (value, count, rest) := by
  cases rest with
  | nil => rfl
  | cons b rest =>
    have hnone : digit? b = none := Option.not_isSome_iff_eq_none.mp (ne_true_of_eq_false h)
    rw [readSignificand, hnone]

/-- Digits are taken as long as the value of all of them fits. -/
theorem readSignificand_digits {s : List Char} (hs : ∀ c ∈ s, c.isDigit = true) {value n : Nat}
    (hvalue : Text.digitsValue value s = some n) (hn : n < UInt64.size) {rest : Bytes}
    (hrest : startsWithDigit rest = false) (count : Nat) :
    readSignificand value count (s.map byte ++ rest) = (n, count + s.length, rest) := by
  induction s generalizing value count with
  | nil =>
    obtain rfl := Option.some.inj hvalue
    exact readSignificand_of_end hrest value count
  | cons c s ih =>
    obtain ⟨hc, hs⟩ := List.forall_mem_cons.mp hs
    rw [Text.digitsValue, Option.bind_eq_some_iff] at hvalue
    obtain ⟨d, hd, hvalue⟩ := hvalue
    have hfits : value * 10 + d < UInt64.size :=
      Nat.lt_of_le_of_lt (Text.le_of_digitsValue hvalue) hn
    rw [List.map_cons, List.cons_append, readSignificand, digit?_byte (toNat_lt_of_isDigit hc), hd]
    dsimp only
    rw [if_pos hfits, ih hs hvalue, List.length_cons, Nat.add_right_comm, Nat.add_assoc]

/-- Only zero is written with a zero in front. -/
theorem decimal_eq_cons (n : Nat) :
    ∃ c s d, Text.decimal n = c :: s ∧ Text.digitValue? c = some d ∧ (d = 0 → s = []) := by
  rw [Text.decimal_eq]
  induction n using Nat.strongRecOn with
  | ind n ih =>
    rw [Nat.toDigits_eq_if (by decide)]
    split
    · rename_i hlt
      exact ⟨_, [], n, rfl, Text.digitValue?_digitChar hlt, fun _ => rfl⟩
    · rename_i hge
      obtain ⟨c, s, d, hdigits, hd, hzero⟩ := ih (n / 10) (by omega)
      refine ⟨c, s ++ [Nat.digitChar (n % 10)], d, by rw [hdigits]; rfl, hd, ?_⟩
      rintro rfl
      -- The digits of `n / 10` would be a zero alone.
      have hvalue := Text.digitsValue_decimal (n / 10)
      rw [Text.decimal_eq, hdigits, hzero rfl, Text.digitsValue, hd] at hvalue
      have : n / 10 = 0 := (Option.some.inj hvalue).symm
      omega

theorem readAfterInteger_of_end {rest : Bytes} (h : endsNumber rest = true) (negative : Bool)
    (n : Nat) : readAfterInteger negative n rest = integerNumber negative n rest := by
  cases rest with
  | nil => rfl
  | cons b rest =>
    simp only [endsNumber, Bool.not_eq_true', Bool.or_eq_false_iff, decide_eq_false_iff_not] at h
    rw [readAfterInteger, if_neg h.1.1.2, if_neg (not_or.mpr ⟨h.1.2, h.2⟩)]

/-- Digits that fit into 64 bits are an integer part, unless a zero is in front of others. -/
theorem readNumber_digits {c : Char} {s : List Char} {d n : Nat}
    (hdigits : ∀ c' ∈ c :: s, c'.isDigit = true) (hd : Text.digitValue? c = some d)
    (hzero : d = 0 → s = []) (hvalue : Text.digitsValue d s = some n) (hn : n < UInt64.size)
    (negative : Bool) {rest : Bytes} (hrest : startsWithDigit rest = false) :
    readNumber negative ((c :: s).map byte ++ rest) = readAfterInteger negative n rest := by
  obtain ⟨hc, hs⟩ := List.forall_mem_cons.mp hdigits
  rw [List.map_cons, List.cons_append, readNumber, digit?_byte (toNat_lt_of_isDigit hc), hd]
  cases d with
  | zero =>
    obtain rfl := hzero rfl
    obtain rfl := Option.some.inj hvalue
    show (if startsWithDigit rest then _ else readAfterInteger negative 0 rest) = _
    rw [hrest, if_neg Bool.false_ne_true]
  | succ d =>
    show (if startsWithDigit (readSignificand (d + 1) 0 (s.map byte ++ rest)).2.2 then _
      else readAfterInteger negative (readSignificand (d + 1) 0 (s.map byte ++ rest)).1
        (readSignificand (d + 1) 0 (s.map byte ++ rest)).2.2) = _
    rw [readSignificand_digits hs hvalue hn hrest]
    dsimp only
    rw [hrest, if_neg Bool.false_ne_true]

theorem isAscii_of_digits {s : List Char} (h : ∀ c ∈ s, c.isDigit = true) : isAscii s = true :=
  List.all_eq_true.mpr fun c hc => decide_eq_true (toNat_lt_of_isDigit (h c hc))

/-- A numeral that fits into 64 bits is read as its value. -/
theorem readNumber_decimal {n : Nat} (hn : n < UInt64.size) (negative : Bool) {rest : Bytes}
    (hrest : endsNumber rest = true) :
    readNumber negative (Utf8.encode (Text.decimal n) ++ rest) = integerNumber negative n rest := by
  have hdigits : ∀ c ∈ Text.decimal n, c.isDigit = true := fun c => Text.isDigit_of_mem_decimal
  have hvalue := Text.digitsValue_decimal n
  rw [encode_of_ascii (isAscii_of_digits hdigits)]
  obtain ⟨c, s, d, hdecimal, hd, hzero⟩ := decimal_eq_cons n
  rw [hdecimal] at hdigits hvalue ⊢
  rw [Text.digitsValue, hd, Option.bind_some, Nat.zero_mul, Nat.zero_add] at hvalue
  rw [readNumber_digits hdigits hd hzero hvalue hn negative (startsWithDigit_of_endsNumber hrest),
    readAfterInteger_of_end hrest]

theorem readNumber_natural (n : UInt64) {rest : Bytes} (hrest : endsNumber rest = true) :
    readNumber false (Utf8.encode (Number.natural n).chars ++ rest) = .ok (.natural n, rest) := by
  rw [Number.chars, readNumber_decimal (UInt64.toNat_lt_size n) false hrest, integerNumber,
    if_neg Bool.false_ne_true, UInt64.ofNat_toNat]

theorem readNumber_negative (n : Fin (Nat.pow 2 63)) {rest : Bytes}
    (hrest : endsNumber rest = true) :
    readNumber true (Utf8.encode (Text.decimal (n.val + 1)) ++ rest) = .ok (.negative n, rest) := by
  have hn : n.val < 2 ^ 63 := n.isLt
  have hsize : n.val + 1 < UInt64.size := by
    show n.val + 1 < 2 ^ 64
    omega
  rw [readNumber_decimal hsize true hrest, integerNumber, if_pos rfl]
  exact dif_pos n.isLt

/-! ### Strings -/

/-- A byte that stands for itself in a string. -/
def IsPlain (b : UInt8) : Prop := b ≠ byte '"' ∧ b ≠ byte '\\' ∧ ¬ b < 0x20

variable {strict : Bool} {pieces : List Piece}

theorem scanString_plain {bytes : Bytes} (h : ∀ b ∈ bytes, IsPlain b) (rest : Bytes) :
    scanString strict pieces .text (bytes ++ rest) =
      scanString strict ((bytes.map Piece.plain).reverse ++ pieces) .text rest := by
  induction bytes generalizing pieces with
  | nil => rfl
  | cons b bytes ih =>
    obtain ⟨⟨hquote, hbackslash, hcontrol⟩, hbytes⟩ := List.forall_mem_cons.mp h
    rw [List.cons_append, scanString, if_neg hquote, if_neg hbackslash, if_neg hcontrol, ih hbytes,
      List.map_cons, List.reverse_cons, List.append_assoc, List.singleton_append]

theorem scanString_letter {b : UInt8} {c : Char} (h : letterEscape? b = some c) (rest : Bytes) :
    scanString strict pieces .text (byte '\\' :: b :: rest) =
      scanString strict (.escaped c 2 :: pieces) .text rest := by
  rw [scanString, if_neg (by decide), if_pos rfl, scanString, h]

theorem hexDigit?_byte {n : Nat} (h : n < 16) : hexDigit? (byte (Text.hexDigit n)) = some n := by
  revert n
  decide

/-- The escape of a control character, by its code point. -/
theorem scanString_hex {n : Nat} (h : n < 0x20) (rest : Bytes) :
    scanString true pieces .text
        (['\\', 'u', '0', '0', Text.hexDigit (n / 16), Text.hexDigit (n % 16)].map byte ++ rest) =
      scanString true (.escaped (Char.ofNat n) 6 :: pieces) .text rest := by
  have hhigh : hexDigit? (byte (Text.hexDigit (n / 16))) = some (n / 16) :=
    hexDigit?_byte (by omega)
  have hlow : hexDigit? (byte (Text.hexDigit (n % 16))) = some (n % 16) := hexDigit?_byte (by omega)
  have hzero : hexDigit? (byte '0') = some 0 := by decide
  have hvalue : n / 16 * 16 + n % 16 = n := Nat.div_add_mod' n 16
  have hbackslash : byte '\\' ≠ byte '"' := by decide
  have hletter : letterEscape? (byte 'u') = none := by decide
  simp only [List.map_cons, List.map_nil, List.cons_append, List.nil_append, scanString,
    hbackslash, hletter, if_false, if_true, hzero, hhigh, hlow, Option.bind_some, Option.map_some,
    Nat.zero_mul, Nat.zero_add, hvalue]
  rw [if_pos (by decide), if_pos (by decide), if_pos (by decide), if_neg (by decide),
    if_neg (by decide), if_neg (by omega), if_neg (by omega)]

/-- A character that is not escaped has no bytes but those that stand for themselves. -/
theorem isPlain_of_mem_encodeChar {c : Char} (hquote : c ≠ '"') (hbackslash : c ≠ '\\')
    (hcontrol : ¬ c < ' ') {b : UInt8} (hb : b ∈ String.utf8EncodeChar c) : IsPlain b := by
  have hascii : ∀ d : Char, d.toNat < 128 → b = byte d → c = d := by
    rintro d hd rfl
    have htoNat : (byte d).toNat = d.toNat :=
      UInt8.toNat_ofNat_of_lt' (Nat.lt_trans hd (by decide))
    have hc := Utf8.toNat_of_mem_encodeChar hb (by rwa [htoNat])
    exact Char.toNat_inj.mp (hc.trans htoNat)
  refine ⟨fun h => hquote (hascii '"' (by decide) h),
    fun h => hbackslash (hascii '\\' (by decide) h), fun h => hcontrol ?_⟩
  have hlt : b.toNat < 32 := UInt8.lt_iff_toNat_lt.mp h
  have hc := Utf8.toNat_of_mem_encodeChar hb (by omega)
  rw [Char.lt_def, UInt32.lt_iff_toNat_lt]
  show c.toNat < 32
  omega

/-- **A character reads as itself**, however it is written. -/
theorem scanString_escapedChar (c : Char) :
    ∃ read : List Piece, read.flatMap Piece.bytes = String.utf8EncodeChar c ∧
      ∀ pieces rest, scanString true pieces .text (Utf8.encode (escapedChar c) ++ rest) =
        scanString true (read.reverse ++ pieces) .text rest := by
  have hletter : ∀ d : Char, d.toNat < 128 → letterEscape? (byte d) = some c →
      ∃ read : List Piece, read.flatMap Piece.bytes = String.utf8EncodeChar c ∧
        ∀ pieces rest, scanString true pieces .text (Utf8.encode ['\\', d] ++ rest) =
          scanString true (read.reverse ++ pieces) .text rest := by
    intro d hd hescape
    refine ⟨[.escaped c 2], List.append_nil _, fun pieces rest => ?_⟩
    rw [encode_of_ascii (isAscii_cons.mpr ⟨by decide, isAscii_cons.mpr ⟨hd, rfl⟩⟩)]
    exact scanString_letter hescape rest
  rw [escapedChar]
  split_ifs with hself hn hr ht hb hf hcontrol
  · obtain rfl | rfl := hself
    · exact hletter '"' (by decide) (by decide)
    · exact hletter '\\' (by decide) (by decide)
  · exact hletter 'n' (by decide) (by rw [hn]; decide)
  · exact hletter 'r' (by decide) (by rw [hr]; decide)
  · exact hletter 't' (by decide) (by rw [ht]; decide)
  · exact hletter 'b' (by decide) (by rw [hb]; decide)
  · exact hletter 'f' (by decide) (by rw [hf]; decide)
  · have hlt : c.toNat < 32 := UInt32.lt_iff_toNat_lt.mp (Char.lt_def.mp hcontrol)
    refine ⟨[.escaped c 6], List.append_nil _, fun pieces rest => ?_⟩
    have hdigit : ∀ n < 16, (Text.hexDigit n).toNat < 128 := by decide
    have hascii : isAscii ['\\', 'u', '0', '0', Text.hexDigit (c.toNat / 16),
        Text.hexDigit (c.toNat % 16)] = true := by
      simpa [isAscii] using ⟨hdigit _ (by omega), hdigit _ (by omega)⟩
    rw [encode_of_ascii hascii, scanString_hex hlt, Char.ofNat_toNat]
    rfl
  · rw [not_or] at hself
    refine ⟨(String.utf8EncodeChar c).map .plain, ?_, fun pieces rest => ?_⟩
    · rw [List.flatMap_map]
      exact List.flatMap_singleton' _
    · rw [Utf8.encode, List.flatMap_singleton]
      exact scanString_plain (fun b => isPlain_of_mem_encodeChar hself.1 hself.2 hcontrol) rest

theorem scanString_chars (s : List Char) :
    ∃ read : List Piece, read.flatMap Piece.bytes = Utf8.encode s ∧
      ∀ pieces rest, scanString true pieces .text (Utf8.encode (s.flatMap escapedChar) ++ rest) =
        scanString true (read.reverse ++ pieces) .text rest := by
  induction s with
  | nil => exact ⟨[], rfl, fun _ _ => rfl⟩
  | cons c s ih =>
    obtain ⟨first, hfirst, hscan⟩ := scanString_escapedChar c
    obtain ⟨others, hothers, hscans⟩ := ih
    refine ⟨first ++ others, ?_, fun pieces rest => ?_⟩
    · rw [List.flatMap_append, hfirst, hothers]
      rfl
    · rw [List.flatMap_cons, Utf8.encode_append, List.append_assoc, hscan, hscans,
        List.reverse_append, List.append_assoc]

theorem encode_stringChars (s : String) (rest : Bytes) :
    Utf8.encode (stringChars s) ++ rest =
      byte '"' :: (Utf8.encode (s.toList.flatMap escapedChar ++ ['"']) ++ rest) := by
  rw [stringChars, List.cons_append, encode_cons (by decide), List.cons_append]

/-- **A string reads as itself.** The opening quote has been taken already. -/
theorem readString_encode (s : String) (rest : Bytes) :
    readString (Utf8.encode (s.toList.flatMap escapedChar ++ ['"']) ++ rest) = .ok (s, rest) := by
  obtain ⟨read, hread, hscan⟩ := scanString_chars s.toList
  rw [readString, Utf8.encode_append, List.append_assoc, hscan, List.append_nil]
  have hend : scanString true read.reverse .text (Utf8.encode ['"'] ++ rest) =
      .ok (read, rest) := by
    rw [encode_of_ascii rfl, List.map_singleton, List.singleton_append, scanString,
      List.reverse_reverse]
    exact if_pos rfl
  rw [hend, Except.bind]
  dsimp only
  rw [hread, Utf8.decode_encode]
  dsimp only
  rw [String.ofList_toList]

end Json

end PlatformProxy
