import PlatformProxy.Proofs.Json.Literals

/-!
# Values through text and back

A value is written without blanks, and is read again from what is written. Where a value ends
inside of another, a comma or a bracket follows, and neither continues a number. So it is enough to
know of each item of an array, and of each member of an object, that a reader takes its text off
the front of such bytes, and what it makes of it; the same then holds of the whole.

This is true of values without fractions and exponents. A double is not always read as the one that
was written.

## Main definitions

* `Json.Reads` — a reader takes a text for a value
* `Json.Gathers` — a reader of members takes the texts of members, one after the other
* `Json.Plain` — values without doubles, up to some depth

## Main results

* `Json.readItems_commaSeparated`, `Json.readMembers_commaSeparated` — the contents of arrays and
  objects
* `Json.reads_chars` — values
-/

namespace PlatformProxy

namespace Json

/-! ### Texts in front of others -/

/-- The first character of a value is in ASCII. It is neither blank nor the end of an array. -/
def beginsValue : List Char → Bool
  | [] => false
  | c :: _ => c.toNat < 128 && !isBlankByte (byte c) && byte c ≠ byte ']'

/-- A reader takes a text for a value, unless it stands in front of what continues a number. -/
structure Reads {α : Type} (reader : Bytes → Except Fault (α × Bytes)) (text : List Char) (v : α) :
    Prop where
  begins : beginsValue text = true
  read : ∀ rest, endsNumber rest = true → reader (Utf8.encode text ++ rest) = .ok (v, rest)

theorem Reads.congr {α : Type} {reader reader' : Bytes → Except Fault (α × Bytes)}
    {text : List Char} {v : α} (h : Reads reader text v)
    (hsame : ∀ input, reader' input = reader input) : Reads reader' text v :=
  ⟨h.begins, fun rest hrest => (hsame _).trans (h.read rest hrest)⟩

theorem exists_cons_of_beginsValue {text : List Char} (h : beginsValue text = true) :
    ∃ b bytes, Utf8.encode text = b :: bytes ∧ isBlankByte b = false ∧ b ≠ byte ']' := by
  cases text with
  | nil => exact absurd h Bool.false_ne_true
  | cons c s =>
    simp only [beginsValue, Bool.and_eq_true, Bool.not_eq_true', decide_eq_true_eq] at h
    exact ⟨_, _, encode_cons h.1.1 s, h.1.2, h.2⟩

theorem ne_nil_of_beginsValue {text : List Char} (h : beginsValue text = true) : text ≠ [] := by
  rintro rfl
  exact absurd h Bool.false_ne_true

theorem skipBlanks_cons {b : UInt8} (h : isBlankByte b = false) (rest : Bytes) :
    skipBlanks (b :: rest) = b :: rest := by
  rw [skipBlanks, if_neg (ne_true_of_eq_false h)]

/-! ### What stands between commas -/

section CommaSeparated

variable {ι : Type} {text : ι → List Char}

theorem commaSeparated_cons (first : List Char) (others : List (List Char)) :
    commaSeparated (first :: others) = first ++ others.flatMap fun t => ',' :: t := by
  induction others generalizing first with
  | nil => rw [List.flatMap_nil, List.append_nil, commaSeparated, List.intercalate_singleton]
  | cons second others ih =>
    have hothers := ih second
    rw [commaSeparated] at hothers ⊢
    rw [List.intercalate_cons_cons, hothers, List.flatMap_cons, List.append_assoc]
    rfl

theorem commaSeparated_map_cons (x : ι) (xs : List ι) :
    commaSeparated ((x :: xs).map text) = text x ++ xs.flatMap fun x => ',' :: text x := by
  rw [List.map_cons, commaSeparated_cons, List.flatMap_map]

/-- Behind an item comes a comma or the end. -/
theorem endsNumber_flatMap (xs : List ι) {rest : Bytes} (h : endsNumber rest = true) :
    endsNumber (Utf8.encode (xs.flatMap fun x => ',' :: text x) ++ rest) = true := by
  cases xs with
  | nil => exact h
  | cons x xs =>
    rw [List.flatMap_cons, List.cons_append, encode_cons (by decide)]
    rfl

theorem length_le_encode (s : List Char) : s.length ≤ (Utf8.encode s).length := by
  induction s with
  | nil => exact Nat.le_refl 0
  | cons c s ih =>
    have hpos := c.utf8Size_pos
    rw [Utf8.encode] at ih
    rw [Utf8.encode, List.flatMap_cons, List.length_append, String.length_utf8EncodeChar,
      List.length_cons]
    omega

/-- Every item takes at least one byte. -/
theorem length_le_commaSeparated {xs : List ι} (h : ∀ x ∈ xs, text x ≠ []) :
    xs.length ≤ (Utf8.encode (commaSeparated (xs.map text))).length := by
  refine Nat.le_trans ?_ (length_le_encode _)
  cases xs with
  | nil => exact Nat.zero_le _
  | cons x xs =>
    have hfirst := List.length_pos_of_ne_nil (h x List.mem_cons_self)
    have hothers : xs.length ≤ (xs.flatMap fun x => ',' :: text x).length := by
      clear h
      induction xs with
      | nil => exact Nat.le_refl 0
      | cons y ys ih =>
        rw [List.flatMap_cons, List.length_append, List.length_cons, List.length_cons]
        omega
    rw [commaSeparated_map_cons, List.length_append, List.length_cons]
    omega

end CommaSeparated

/-! ### Arrays -/

section Items

variable {ι α : Type} {item : Bytes → Except Fault (α × Bytes)} {text : ι → List Char}
  {value : ι → α} {xs : List ι}

theorem nextItem_of_beginsValue {t : List Char} (h : beginsValue t = true) (rest : Bytes) :
    nextItem true (Utf8.encode t ++ rest) = .ok (some (Utf8.encode t ++ rest)) := by
  obtain ⟨b, bytes, hbytes, hblank, hend⟩ := exists_cons_of_beginsValue h
  rw [hbytes, List.cons_append, nextItem, skipBlanks_cons hblank]
  dsimp only
  rw [if_neg hend, if_pos rfl]

theorem nextItem_comma {t : List Char} (h : beginsValue t = true) (rest : Bytes) :
    nextItem false (byte ',' :: (Utf8.encode t ++ rest)) =
      .ok (some (Utf8.encode t ++ rest)) := by
  obtain ⟨b, bytes, hbytes, hblank, hend⟩ := exists_cons_of_beginsValue h
  rw [hbytes, List.cons_append, nextItem, skipBlanks_cons (by decide)]
  dsimp only
  rw [if_neg (by decide), if_neg Bool.false_ne_true, if_pos rfl, skipBlanks_cons hblank]
  dsimp only
  rw [if_neg hend]

theorem readItems_end (fuel : Nat) (first : Bool) (acc : List α) (rest : Bytes) :
    readItems item (fuel + 1) first acc (byte ']' :: rest) = .ok (acc.reverse, byte ']' :: rest) :=
  rfl

theorem readItems_next {first : Bool} {input input' rest : Bytes} {v : α}
    (hnext : nextItem first input = .ok (some input')) (hitem : item input' = .ok (v, rest))
    (fuel : Nat) (acc : List α) :
    readItems item (fuel + 1) first acc input = readItems item fuel false (v :: acc) rest := by
  rw [readItems, hnext]
  dsimp only
  rw [hitem]

/-- The items behind the first. -/
theorem readItems_flatMap (h : ∀ x ∈ xs, Reads item (text x) (value x)) {fuel : Nat}
    (hfuel : xs.length < fuel) (acc : List α) (rest : Bytes) :
    readItems item fuel false acc
        (Utf8.encode (xs.flatMap fun x => ',' :: text x) ++ byte ']' :: rest) =
      .ok (acc.reverse ++ xs.map value, byte ']' :: rest) := by
  obtain ⟨fuel, rfl⟩ : ∃ n, fuel = n + 1 := Nat.exists_eq_succ_of_ne_zero (by omega)
  induction xs generalizing fuel acc with
  | nil => rw [List.map_nil, List.append_nil]; exact readItems_end fuel false acc rest
  | cons x xs ih =>
    obtain ⟨hx, hxs⟩ := List.forall_mem_cons.mp h
    rw [List.length_cons] at hfuel
    rw [List.flatMap_cons, List.cons_append, encode_cons (by decide), Utf8.encode_append,
      List.cons_append, List.append_assoc,
      readItems_next (nextItem_comma hx.begins _) (hx.read _ (endsNumber_flatMap xs rfl))]
    obtain ⟨fuel, rfl⟩ : ∃ n, fuel = n + 1 := Nat.exists_eq_succ_of_ne_zero (by omega)
    rw [ih hxs _ fuel (by omega), List.reverse_cons, List.append_assoc, List.map_cons,
      List.singleton_append]

/-- **The items of an array** are read one after the other up to its end. -/
theorem readItems_commaSeparated (h : ∀ x ∈ xs, Reads item (text x) (value x)) {fuel : Nat}
    (hfuel : xs.length < fuel) (rest : Bytes) :
    readItems item fuel true [] (Utf8.encode (commaSeparated (xs.map text)) ++ byte ']' :: rest) =
      .ok (xs.map value, byte ']' :: rest) := by
  obtain ⟨fuel, rfl⟩ : ∃ n, fuel = n + 1 := Nat.exists_eq_succ_of_ne_zero (by omega)
  cases xs with
  | nil => exact readItems_end fuel true [] rest
  | cons x xs =>
    obtain ⟨hx, hxs⟩ := List.forall_mem_cons.mp h
    rw [List.length_cons] at hfuel
    rw [commaSeparated_map_cons, Utf8.encode_append, List.append_assoc,
      readItems_next (nextItem_of_beginsValue hx.begins _)
        (hx.read _ (endsNumber_flatMap xs rfl)),
      readItems_flatMap hxs (by omega)]
    rfl

theorem encode_brackets {opening closing : Char} (hopening : opening.toNat < 128)
    (hclosing : closing.toNat < 128) (s : List Char) (rest : Bytes) :
    Utf8.encode (opening :: s ++ [closing]) ++ rest =
      byte opening :: (Utf8.encode s ++ byte closing :: rest) := by
  rw [List.cons_append, encode_cons hopening, Utf8.encode_append, encode_cons hclosing,
    List.cons_append, List.append_assoc]
  rfl

/-- The fuel that readers of arrays and objects get is enough. -/
theorem length_lt_fuel (h : ∀ x ∈ xs, text x ≠ []) (rest : Bytes) :
    xs.length < (Utf8.encode (commaSeparated (xs.map text)) ++ rest).length + 1 := by
  have hle := length_le_commaSeparated h
  rw [List.length_append]
  omega

end Items

/-! ### Objects -/

/-- The text of a member. -/
def memberText (m : String × List Char) : List Char := stringChars m.1 ++ ':' :: m.2

/-- A reader of members takes the texts of members, one after the other. -/
inductive Gathers {σ : Type} (member : σ → String → Bytes → Except Fault (σ × Bytes)) :
    σ → List (String × List Char) → σ → Prop
  | done (acc : σ) : Gathers member acc [] acc
  | next {acc acc' acc'' : σ} {name : String} {text : List Char}
      {members : List (String × List Char)}
      (h : ∀ rest, endsNumber rest = true →
        member acc name (Utf8.encode (':' :: text) ++ rest) = .ok (acc', rest))
      (hmembers : Gathers member acc' members acc'') :
      Gathers member acc ((name, text) :: members) acc''

section Members

variable {σ : Type} {member : σ → String → Bytes → Except Fault (σ × Bytes)}
  {members : List (String × List Char)} {acc acc' : σ}

/-- What follows the opening quote of a member. -/
theorem encode_memberText (m : String × List Char) (rest : Bytes) :
    Utf8.encode (memberText m) ++ rest =
      byte '"' :: (Utf8.encode (m.1.toList.flatMap escapedChar ++ ['"']) ++
        (Utf8.encode (':' :: m.2) ++ rest)) := by
  rw [memberText, Utf8.encode_append, List.append_assoc, encode_stringChars]

theorem nextKey_memberText (m : String × List Char) (rest : Bytes) :
    nextKey true (Utf8.encode (memberText m) ++ rest) =
      .ok (some (Utf8.encode (m.1.toList.flatMap escapedChar ++ ['"']) ++
        (Utf8.encode (':' :: m.2) ++ rest))) := by
  rw [encode_memberText]
  rfl

theorem nextKey_comma (m : String × List Char) (rest : Bytes) :
    nextKey false (byte ',' :: (Utf8.encode (memberText m) ++ rest)) =
      .ok (some (Utf8.encode (m.1.toList.flatMap escapedChar ++ ['"']) ++
        (Utf8.encode (':' :: m.2) ++ rest))) := by
  rw [encode_memberText]
  rfl

theorem readMembers_end (fuel : Nat) (first : Bool) (acc : σ) (rest : Bytes) :
    readMembers member (fuel + 1) first acc (byte '\x7d' :: rest) =
      .ok (acc, byte '\x7d' :: rest) := rfl

theorem readMembers_next {first : Bool} {input rest : Bytes} {name : String} {text : List Char}
    (hkey : nextKey first input =
      .ok (some (Utf8.encode (name.toList.flatMap escapedChar ++ ['"']) ++
        (Utf8.encode (':' :: text) ++ rest))))
    (hmember : member acc name (Utf8.encode (':' :: text) ++ rest) = .ok (acc', rest))
    (fuel : Nat) :
    readMembers member (fuel + 1) first acc input = readMembers member fuel false acc' rest := by
  rw [readMembers, hkey]
  dsimp only
  rw [readString_encode]
  dsimp only
  rw [hmember]

/-- The members behind the first. -/
theorem readMembers_flatMap (h : Gathers member acc members acc') {fuel : Nat}
    (hfuel : members.length < fuel) (rest : Bytes) :
    readMembers member fuel false acc
        (Utf8.encode (members.flatMap fun m => ',' :: memberText m) ++ byte '\x7d' :: rest) =
      .ok (acc', byte '\x7d' :: rest) := by
  obtain ⟨fuel, rfl⟩ : ∃ n, fuel = n + 1 := Nat.exists_eq_succ_of_ne_zero (by omega)
  induction h generalizing fuel with
  | done acc => exact readMembers_end fuel false acc rest
  | next hread hmembers ih =>
    rw [List.length_cons] at hfuel
    rw [List.flatMap_cons, List.cons_append, encode_cons (by decide), Utf8.encode_append,
      List.cons_append, List.append_assoc,
      readMembers_next (nextKey_comma _ _) (hread _ (endsNumber_flatMap _ rfl))]
    obtain ⟨fuel, rfl⟩ : ∃ n, fuel = n + 1 := Nat.exists_eq_succ_of_ne_zero (by omega)
    exact ih fuel (by omega)

/-- **The members of an object** are read one after the other up to its end. -/
theorem readMembers_commaSeparated (h : Gathers member acc members acc') {fuel : Nat}
    (hfuel : members.length < fuel) (rest : Bytes) :
    readMembers member fuel true acc
        (Utf8.encode (commaSeparated (members.map memberText)) ++ byte '\x7d' :: rest) =
      .ok (acc', byte '\x7d' :: rest) := by
  obtain ⟨fuel, rfl⟩ : ∃ n, fuel = n + 1 := Nat.exists_eq_succ_of_ne_zero (by omega)
  cases h with
  | done acc => exact readMembers_end fuel true acc rest
  | next hread hmembers =>
    rw [List.length_cons] at hfuel
    rw [commaSeparated_map_cons, Utf8.encode_append, List.append_assoc,
      readMembers_next (nextKey_memberText _ _) (hread _ (endsNumber_flatMap _ rfl))]
    exact readMembers_flatMap hmembers (by omega) rest

theorem memberText_ne_nil (m : String × List Char) : memberText m ≠ [] := nofun

theorem readColon_encode (text : List Char) (rest : Bytes) :
    readColon (Utf8.encode (':' :: text) ++ rest) = .ok (Utf8.encode text ++ rest) := by
  rw [encode_cons (by decide)]
  rfl

end Members

/-! ### Values -/

/-- Read a member of an object from its colon on. -/
def readMember (depth : Nat) (acc : List (String × Json)) (name : String) (input : Bytes) :
    Except Fault (List (String × Json) × Bytes) := do
  let input ← readColon input
  let (v, rest) ← readValue depth input
  pure (insertMember name v acc, rest)

theorem readValue_array (depth : Nat) (input : Bytes) :
    readValue (depth + 1) (byte '[' :: input) = (do
      let (items, rest) ← readItems (readValue depth) (input.length + 1) true [] input
      let rest ← endArray rest
      pure (array items, rest)) := by
  rw [readValue]
  rfl

theorem readValue_object (depth : Nat) (input : Bytes) :
    readValue (depth + 1) (byte '\x7b' :: input) = (do
      let (members, rest) ← readMembers (readMember depth) (input.length + 1) true [] input
      let rest ← endObject rest
      pure (object members, rest)) := by
  rw [readValue]
  rfl

theorem readMember_of_reads {depth : Nat} {text : List Char} {v : Json}
    (h : Reads (readValue depth) text v) (acc : List (String × Json)) (name : String) {rest : Bytes}
    (hrest : endsNumber rest = true) :
    readMember depth acc name (Utf8.encode (':' :: text) ++ rest) =
      .ok (insertMember name v acc, rest) := by
  rw [readMember, readColon_encode]
  show (readValue depth (Utf8.encode text ++ rest) >>= _) = _
  rw [h.read rest hrest]
  rfl

theorem reads_array {ι : Type} {depth : Nat} {xs : List ι} {text : ι → List Char} {value : ι → Json}
    (h : ∀ x ∈ xs, Reads (readValue depth) (text x) (value x)) :
    Reads (readValue (depth + 1)) ('[' :: commaSeparated (xs.map text) ++ [']'])
      (array (xs.map value)) := by
  refine ⟨rfl, fun rest _ => ?_⟩
  have hfuel := length_lt_fuel (fun x hx => ne_nil_of_beginsValue (h x hx).begins)
    (byte ']' :: rest)
  rw [encode_brackets (by decide) (by decide), readValue_array, readItems_commaSeparated h hfuel]
  rfl

theorem reads_object {depth : Nat} {texts : List (String × List Char)}
    {members : List (String × Json)} (h : Gathers (readMember depth) [] texts members) :
    Reads (readValue (depth + 1)) ('\x7b' :: commaSeparated (texts.map memberText) ++ ['\x7d'])
      (object members) := by
  refine ⟨rfl, fun rest _ => ?_⟩
  have hfuel := length_lt_fuel (fun m (_ : m ∈ texts) => memberText_ne_nil m)
    (byte '\x7d' :: rest)
  rw [encode_brackets (by decide) (by decide), readValue_object,
    readMembers_commaSeparated h hfuel]
  rfl

theorem reads_word {α : Type} {reader : Bytes → Except Fault (α × Bytes)} {c : Char}
    {word : List Char} {v : α} (hbegins : beginsValue (c :: word) = true)
    (hword : isAscii word = true)
    (h : ∀ input, reader (byte c :: input) = (readWord word input).map (v, ·)) :
    Reads reader (c :: word) v := by
  refine ⟨hbegins, fun rest _ => ?_⟩
  have hc : c.toNat < 128 := by
    simp only [beginsValue, Bool.and_eq_true, decide_eq_true_eq] at hbegins
    exact hbegins.1.1
  rw [encode_cons hc, List.cons_append, h, readWord_encode hword]
  rfl

theorem reads_null (depth : Nat) : Reads (readValue depth) null.chars null :=
  reads_word rfl rfl fun input => by rw [readValue]; rfl

theorem reads_bool (depth : Nat) (b : Bool) : Reads (readValue depth) (bool b).chars (bool b) := by
  cases b with
  | false => exact reads_word rfl rfl fun input => by rw [readValue]; rfl
  | true => exact reads_word rfl rfl fun input => by rw [readValue]; rfl

theorem reads_string (depth : Nat) (s : String) :
    Reads (readValue depth) (stringChars s) (string s) := by
  refine ⟨rfl, fun rest _ => ?_⟩
  have hvalue : ∀ input, readValue depth (byte '"' :: input) =
      (readString input).map fun read => (string read.1, read.2) := by
    intro input
    rw [readValue]
    rfl
  rw [encode_stringChars, hvalue, readString_encode]
  rfl

/-- A numeral begins with a digit. -/
theorem exists_digit_cons (n : Nat) : ∃ c s, Text.decimal n = c :: s ∧ c.isDigit = true := by
  cases h : Text.decimal n with
  | nil => exact absurd h (Text.decimal_ne_nil n)
  | cons c s => exact ⟨c, s, rfl, Text.isDigit_of_mem_decimal (h ▸ List.mem_cons_self)⟩

theorem exists_encode_decimal (n : Nat) :
    ∃ b bytes, Utf8.encode (Text.decimal n) = b :: bytes ∧ isDigit b = true := by
  obtain ⟨c, s, hdecimal, hc⟩ := exists_digit_cons n
  refine ⟨byte c, Utf8.encode s, ?_, isDigit_byte hc⟩
  rw [hdecimal, encode_cons (toNat_lt_of_isDigit hc)]

/-- A digit is no other byte. -/
theorem ne_of_isDigit {b b' : UInt8} (h : isDigit b = true) (h' : isDigit b' = false) : b ≠ b' := by
  rintro rfl
  exact absurd (h.symm.trans h') (by decide)

theorem isBlankByte_of_isDigit {b : UInt8} (h : isDigit b = true) : isBlankByte b = false := by
  simp only [isBlankByte, Bool.or_eq_false_iff, decide_eq_false_iff_not]
  exact ⟨⟨⟨ne_of_isDigit h (by decide), ne_of_isDigit h (by decide)⟩, ne_of_isDigit h (by decide)⟩,
    ne_of_isDigit h (by decide)⟩

theorem beginsValue_of_isDigit {c : Char} (hc : c.isDigit = true) (s : List Char) :
    beginsValue (c :: s) = true := by
  have hdigit := isDigit_byte hc
  simp only [beginsValue, Bool.and_eq_true, Bool.not_eq_true', decide_eq_true_eq]
  exact ⟨⟨toNat_lt_of_isDigit hc, isBlankByte_of_isDigit hdigit⟩, ne_of_isDigit hdigit (by decide)⟩

theorem beginsValue_decimal (n : Nat) : beginsValue (Text.decimal n) = true := by
  obtain ⟨c, s, hdecimal, hc⟩ := exists_digit_cons n
  rw [hdecimal]
  exact beginsValue_of_isDigit hc s

theorem readValue_digit {depth : Nat} {b : UInt8} (hb : isDigit b = true) (rest : Bytes) :
    readValue depth (b :: rest) =
      (readNumber false (b :: rest)).map fun read => (number read.1, read.2) := by
  rw [readValue, skipBlanks_cons (isBlankByte_of_isDigit hb)]
  dsimp only
  rw [if_neg (ne_of_isDigit hb (by decide)), if_neg (ne_of_isDigit hb (by decide)),
    if_neg (ne_of_isDigit hb (by decide)), if_neg (ne_of_isDigit hb (by decide)), if_pos hb]

theorem reads_natural (depth : Nat) (n : UInt64) :
    Reads (readValue depth) (Number.natural n).chars (number (.natural n)) := by
  refine ⟨beginsValue_decimal _, fun rest hrest => ?_⟩
  have hread := readNumber_natural n hrest
  obtain ⟨b, bytes, hbytes, hb⟩ := exists_encode_decimal n.toNat
  rw [Number.chars, hbytes, List.cons_append] at hread ⊢
  rw [readValue_digit hb, hread]
  rfl

theorem readValue_minus (depth : Nat) (rest : Bytes) :
    readValue depth (byte '-' :: rest) =
      (readNumber true rest).map fun read => (number read.1, read.2) := by
  rw [readValue]
  rfl

theorem reads_negative (depth : Nat) (n : Fin (Nat.pow 2 63)) :
    Reads (readValue depth) (Number.negative n).chars (number (.negative n)) := by
  refine ⟨rfl, fun rest hrest => ?_⟩
  rw [Number.chars, encode_cons (by decide), List.cons_append, readValue_minus,
    readNumber_negative n hrest]
  rfl

/-- Values without doubles that have at most `depth` arrays and objects within one another, and
the members of objects in order. -/
inductive Plain : (depth : Nat) → Json → Prop
  | null {depth : Nat} : Plain depth null
  | bool {depth : Nat} (b : Bool) : Plain depth (bool b)
  | natural {depth : Nat} (n : UInt64) : Plain depth (number (.natural n))
  | negative {depth : Nat} (n : Fin (Nat.pow 2 63)) : Plain depth (number (.negative n))
  | string {depth : Nat} (s : String) : Plain depth (string s)
  | array {depth : Nat} {items : List Json} (h : ∀ v ∈ items, Plain depth v) :
      Plain (depth + 1) (array items)
  | object {depth : Nat} {members : List (String × Json)} (h : ∀ m ∈ members, Plain depth m.2)
      (hordered : Ordered members) : Plain (depth + 1) (object members)

theorem itemChars_eq (items : List Json) : itemChars items = items.map chars := by
  induction items with
  | nil => rfl
  | cons v items ih => rw [itemChars, ih, List.map_cons]

theorem memberChars_eq (members : List (String × Json)) :
    memberChars members = (members.map fun m => (m.1, m.2.chars)).map memberText := by
  induction members with
  | nil => rfl
  | cons m members ih =>
    rw [memberChars, ih]
    rfl

theorem insertMember_of_forall_lt {name : String} {members : List (String × Json)}
    (h : ∀ m ∈ members, m.1 < name) (v : Json) :
    insertMember name v members = members ++ [(name, v)] := by
  induction members with
  | nil => rfl
  | cons m members ih =>
    obtain ⟨hm, hmembers⟩ := List.forall_mem_cons.mp h
    have hlt : ¬ name < m.1 := fun hlt => String.lt_irrefl _ (String.lt_trans hm hlt)
    have hne : name ≠ m.1 := by
      rintro rfl
      exact String.lt_irrefl _ hm
    rw [insertMember, if_neg hlt, if_neg hne, ih hmembers, List.cons_append]

/-- Members in order are gathered as they are. -/
theorem gathers_ordered {depth : Nat} {acc members : List (String × Json)}
    (h : ∀ m ∈ members, Reads (readValue depth) m.2.chars m.2)
    (hordered : Ordered (acc ++ members)) :
    Gathers (readMember depth) acc (members.map fun m => (m.1, m.2.chars)) (acc ++ members) := by
  induction members generalizing acc with
  | nil =>
    rw [List.append_nil]
    exact .done acc
  | cons m members ih =>
    obtain ⟨hm, hmembers⟩ := List.forall_mem_cons.mp h
    have hlast : insertMember m.1 m.2 acc = acc ++ [m] := by
      refine insertMember_of_forall_lt (fun m' hm' => ?_) m.2
      exact (List.pairwise_append.mp hordered).2.2 m' hm' m List.mem_cons_self
    have hsplit : acc ++ m :: members = (acc ++ [m]) ++ members := by
      rw [List.append_assoc, List.singleton_append]
    rw [hsplit] at hordered ⊢
    refine .next (fun rest hrest => ?_) (ih hmembers hordered)
    rw [readMember_of_reads hm acc m.1 hrest, hlast]

/-- **A value without doubles reads as itself.** -/
theorem reads_chars {depth : Nat} {v : Json} (h : v.Plain depth) :
    Reads (readValue depth) v.chars v := by
  induction h with
  | null => exact reads_null _
  | bool b => exact reads_bool _ b
  | natural n => exact reads_natural _ n
  | negative n => exact reads_negative _ n
  | string s => exact reads_string _ s
  | @array _ items _ ih =>
    have hread := reads_array ih
    rw [List.map_id'] at hread
    rwa [chars, itemChars_eq]
  | @object _ members _ hordered ih =>
    rw [chars, memberChars_eq]
    exact reads_object (gathers_ordered ih hordered)

end Json

end PlatformProxy
