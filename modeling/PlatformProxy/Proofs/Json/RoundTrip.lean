import PlatformProxy.Proofs.Json.Records
import PlatformProxy.Proofs.Json.Scalar
import PlatformProxy.Proofs.Json.Values

/-!
# Typed values through text and back

A value of a shape has a text and a JSON value. There are two ways back from the text, through the
JSON value and straight, and both come to the value that was written.

The two ways read a record differently. The members of a JSON value are in the order of their
names, the fields of a text in the order of their declaration. Each goes where its name belongs, so
the order does not matter as long as no two fields share a name.

An optional value cannot be told from none if its JSON value is null, and doubles are not always
read as they were written. Values that are free of both are plain.

## Main definitions

* `Json.Shape.Plain` — the values of a shape that are read back
* `Json.Fields.Refills` — what is read into the fields of a record, if JSON values may have changed

## Main results

* `Json.Shape.reads_toJson` — from the text to the JSON value
* `Json.Fields.ofMemberList_eq_ok_iff_refills` — members in any order fill the fields of their names
* `Json.Shape.ofJson_toJson` — from the JSON value to the value
* `Json.Shape.reads` — from the text to the value
* `Json.parse_bytesOf`, `Json.fromJson?_toJson`, `Json.fromText_bytesOf` — the same for types with
  a JSON form

## Implementation notes

What is written of a record is said of its slots, which treat required and other fields alike.
-/

namespace PlatformProxy

namespace Json

/-! ### Fields by slots -/

namespace Fields

def names : Fields → List String
  | nil => []
  | cons name _ _ rest => name :: rest.names

/-- The slots of a record that is complete. -/
def filled : (fs : Fields) → fs.Values → fs.Slots
  | nil, () => ()
  | cons _ true _ rest, (v, values) => (some v, rest.filled values)
  | cons _ false _ rest, (slot, values) => (slot, rest.filled values)

/-- The members for slots. -/
def members : (fs : Fields) → fs.Slots → List (String × Json)
  | nil, () => []
  | cons _ _ _ rest, (none, slots) => rest.members slots
  | cons name _ shape rest, (some v, slots) => (name, shape.toJson v) :: rest.members slots

/-- The texts for slots. -/
def texts : (fs : Fields) → fs.Slots → List (String × List Char)
  | nil, () => []
  | cons _ _ _ rest, (none, slots) => rest.texts slots
  | cons name _ shape rest, (some v, slots) => (name, shape.chars v) :: rest.texts slots

theorem complete_filled : (fs : Fields) → (values : fs.Values) →
    fs.complete (fs.filled values) = .ok values
  | nil, () => rfl
  | cons _ true _ rest, (_, values) => by rw [filled, complete, rest.complete_filled values]; rfl
  | cons _ false _ rest, (_, values) => by rw [filled, complete, rest.complete_filled values]; rfl

theorem toMembers_eq : (fs : Fields) → (values : fs.Values) →
    fs.toMembers values = fs.members (fs.filled values)
  | nil, () => rfl
  | cons name true shape rest, (v, values) => congrArg ((name, shape.toJson v) :: ·)
    (rest.toMembers_eq values)
  | cons _ false _ rest, (none, values) => rest.toMembers_eq values
  | cons name false shape rest, (some v, values) => congrArg ((name, shape.toJson v) :: ·)
    (rest.toMembers_eq values)

theorem memberChars_eq : (fs : Fields) → (values : fs.Values) →
    fs.memberChars values = (fs.texts (fs.filled values)).map memberText
  | nil, () => rfl
  | cons name true shape rest, (v, values) => congrArg (memberText (name, shape.chars v) :: ·)
    (rest.memberChars_eq values)
  | cons _ false _ rest, (none, values) => rest.memberChars_eq values
  | cons name false shape rest, (some v, values) =>
    congrArg (memberText (name, shape.chars v) :: ·) (rest.memberChars_eq values)

/-- Each member belongs to a field, and they are in the same order. -/
theorem sublist_names : (fs : Fields) → (slots : fs.Slots) →
    ((fs.members slots).map Prod.fst).Sublist fs.names
  | nil, () => .slnil
  | cons name _ _ rest, (none, slots) => (rest.sublist_names slots).cons name
  | cons name _ _ rest, (some _, slots) => (rest.sublist_names slots).cons_cons name

theorem map_fst_texts : (fs : Fields) → (slots : fs.Slots) →
    (fs.texts slots).map Prod.fst = (fs.members slots).map Prod.fst
  | nil, () => rfl
  | cons _ _ _ rest, (none, slots) => rest.map_fst_texts slots
  | cons name _ _ rest, (some _, slots) => congrArg (name :: ·) (rest.map_fst_texts slots)

end Fields

/-! ### Plain values -/

mutual

/-- Values with at most `depth` arrays and objects within one another, without doubles, and without
optional values that look like none. No two fields of a record share a name. -/
def Shape.Plain : (s : Shape) → (depth : Nat) → s.Value → Prop
  | .any, depth, v => Json.Plain depth v
  | .text, _, _ | .path, _, _ | .flag, _, _ | .integer _, _, _ => True
  | .single, _, _ => False
  | .optional _, _, none => True
  | .optional item, depth, some v => item.Plain depth v ∧ item.toJson v ≠ null
  | .list _, 0, _ | .record _ _, 0, _ => False
  | .list item, depth + 1, vs => ∀ v ∈ vs, item.Plain depth v
  | .record _ fields, depth + 1, values =>
    fields.names.Nodup ∧ fields.Plain depth (fields.filled values)

/-- The same for what is in slots. -/
def Fields.Plain : (fs : Fields) → (depth : Nat) → fs.Slots → Prop
  | .nil, _, () => True
  | .cons _ _ _ rest, depth, (none, slots) => rest.Plain depth slots
  | .cons _ _ shape rest, depth, (some v, slots) => shape.Plain depth v ∧ rest.Plain depth slots

end

/-! ### The JSON value -/

/-- An integer is kept exactly. -/
theorem IntegerKind.toNumber_cases {kind : IntegerKind} (v : kind.Value) :
    (∃ n, kind.toNumber v = .natural n) ∨ ∃ n, kind.toNumber v = .negative n := by
  have hint := toInt?_toNumber v
  cases hnumber : kind.toNumber v with
  | natural n => exact .inl ⟨n, rfl⟩
  | negative n => exact .inr ⟨n, rfl⟩
  | real x hx =>
    rw [hnumber] at hint
    exact absurd hint nofun

theorem mem_foldl_insertMember {members acc : List (String × Json)} {m : String × Json}
    (h : m ∈ members.foldl (fun acc m => insertMember m.1 m.2 acc) acc) : m ∈ acc ++ members := by
  induction members generalizing acc with
  | nil => rwa [List.append_nil]
  | cons m' members ih =>
    have hmem := List.mem_append.mp (ih h)
    rcases hmem with hmem | hmem
    · rcases mem_insertMember hmem with rfl | hmem
      · exact List.mem_append_right _ List.mem_cons_self
      · exact List.mem_append_left _ hmem
    · exact List.mem_append_right _ (List.mem_cons_of_mem _ hmem)

mutual

/-- The JSON value of a plain value is plain. -/
theorem Shape.plain_toJson : (s : Shape) → (depth : Nat) → (v : s.Value) → s.Plain depth v →
    (s.toJson v).Plain depth
  | .any, _, _, h => h
  | .text, _, s, _ => .string s
  | .path, _, s, _ => .string s
  | .flag, _, b, _ => .bool b
  | .integer kind, _, v, _ => by
    show (number (kind.toNumber v)).Plain _
    obtain ⟨n, hn⟩ | ⟨n, hn⟩ := IntegerKind.toNumber_cases v
    · rw [hn]
      exact .natural n
    · rw [hn]
      exact .negative n
  | .optional _, _, none, _ => .null
  | .optional item, depth, some v, h => item.plain_toJson depth v h.1
  | .list item, depth + 1, vs, h => by
    refine .array fun v hv => ?_
    obtain ⟨x, hx, rfl⟩ := List.mem_map.mp hv
    exact item.plain_toJson depth x (h x hx)
  | .record _ fields, depth + 1, values, h => by
    refine .object (fun m hm => ?_) (ordered_foldl_insertMember List.Pairwise.nil)
    rw [fields.toMembers_eq] at hm
    exact fields.plain_members depth _ h.2 m (mem_foldl_insertMember hm)

theorem Fields.plain_members : (fs : Fields) → (depth : Nat) → (slots : fs.Slots) →
    fs.Plain depth slots → ∀ m ∈ fs.members slots, m.2.Plain depth
  | .nil, _, (), _ => nofun
  | .cons _ _ _ rest, depth, (none, slots), h => rest.plain_members depth slots h
  | .cons _ _ shape rest, depth, (some v, slots), h =>
    List.forall_mem_cons.mpr ⟨shape.plain_toJson depth v h.1, rest.plain_members depth slots h.2⟩

end

mutual

/-- **The text of a plain value reads as its JSON value.** -/
theorem Shape.reads_toJson : (s : Shape) → (depth : Nat) → (v : s.Value) → s.Plain depth v →
    Reads (readValue depth) (s.chars v) (s.toJson v)
  | .any, _, _, h => reads_chars h
  | .text, depth, s, _ => reads_string depth s
  | .path, depth, s, _ => reads_string depth s
  | .flag, depth, b, _ => reads_bool depth b
  | .integer kind, depth, v, h => reads_chars ((Shape.integer kind).plain_toJson depth v h)
  | .optional _, depth, none, _ => reads_null depth
  | .optional item, depth, some v, h => item.reads_toJson depth v h.1
  | .list item, depth + 1, vs, h => reads_array fun v hv => item.reads_toJson depth v (h v hv)
  | .record _ fields, depth + 1, values, h => by
    show Reads _ ('\x7b' :: commaSeparated (fields.memberChars values) ++ ['\x7d'])
      (ofMembers (fields.toMembers values))
    rw [fields.memberChars_eq, fields.toMembers_eq]
    exact reads_object (fields.gathers_toJson depth _ h.2 [])

theorem Fields.gathers_toJson : (fs : Fields) → (depth : Nat) → (slots : fs.Slots) →
    fs.Plain depth slots → ∀ acc, Gathers (readMember depth) acc (fs.texts slots)
      ((fs.members slots).foldl (fun acc m => insertMember m.1 m.2 acc) acc)
  | .nil, _, (), _, acc => .done acc
  | .cons _ _ _ rest, depth, (none, slots), h, acc => rest.gathers_toJson depth slots h acc
  | .cons name _ shape rest, depth, (some v, slots), h, acc =>
    .next (fun _ => readMember_of_reads (shape.reads_toJson depth v h.1) acc name)
      (rest.gathers_toJson depth slots h.2 _)

end

/-! ### From the JSON value -/

theorem perm_insertMember {name : String} {members : List (String × Json)}
    (h : name ∉ members.map Prod.fst) (v : Json) :
    (insertMember name v members).Perm ((name, v) :: members) := by
  induction members with
  | nil => exact .refl _
  | cons m members ih =>
    rw [List.map_cons, List.mem_cons, not_or] at h
    rw [insertMember]
    split
    · exact .refl _
    · rw [if_neg h.1]
      exact ((ih h.2).cons m).trans (.swap _ _ _)

/-- Members of different names are all in the object that is made of them. -/
theorem perm_foldl_insertMember {members acc : List (String × Json)}
    (h : ((acc ++ members).map Prod.fst).Nodup) :
    (members.foldl (fun acc m => insertMember m.1 m.2 acc) acc).Perm (acc ++ members) := by
  induction members generalizing acc with
  | nil => rw [List.append_nil]; exact .refl _
  | cons m members ih =>
    have hmove : (acc ++ m :: members).Perm ((m :: acc) ++ members) := List.perm_middle
    have hnodup := (hmove.map Prod.fst).nodup_iff.mp h
    have hnew : m.1 ∉ acc.map Prod.fst := by
      rw [List.cons_append, List.map_cons, List.nodup_cons, List.map_append, List.mem_append,
        not_or] at hnodup
      exact hnodup.1.1
    have hfirst := (perm_insertMember hnew m.2).append_right members
    exact (ih ((hfirst.map Prod.fst).nodup_iff.mpr hnodup)).trans (hfirst.trans hmove.symm)

theorem ofItems_map {ι α : Type} {item : Json → Except Mismatch α} {xs : List ι} {json : ι → Json}
    {value : ι → α} (h : ∀ x ∈ xs, item (json x) = .ok (value x)) :
    ofItems item (xs.map json) = .ok (xs.map value) := by
  induction xs with
  | nil => rfl
  | cons x xs ih =>
    obtain ⟨hx, hxs⟩ := List.forall_mem_cons.mp h
    rw [List.map_cons, ofItems, hx, ih hxs]
    rfl

/-- Members without a field do not matter. -/
theorem ofMemberList_nil (members : List (String × Json)) :
    ofMemberList Fields.nil.ofMember () members = .ok () := by
  induction members with
  | nil => rfl
  | cons m members ih => exact ih

namespace Fields

variable {change : Json → Json}

/-- What is read into slots from the members for others, if their values have changed. -/
def Refills (change : Json → Json) : (fs : Fields) → fs.Slots → fs.Slots → Prop
  | nil, (), () => True
  | cons name _ shape rest, (slot, slots), (slot', slots') =>
    Fills shape (slot.map fun v => (name, change (shape.toJson v))).toList slot' ∧
      rest.Refills change slots slots'

/-- The members for slots, with their values changed. -/
def changed (change : Json → Json) (fs : Fields) (slots : fs.Slots) : List (String × Json) :=
  (fs.members slots).map fun m => (m.1, change m.2)

theorem changed_cons {name : String} {required : Bool} {shape : Shape} {rest : Fields}
    (slot : Option shape.Value) (slots : rest.Slots) :
    (cons name required shape rest).changed change (slot, slots) =
      (slot.map fun v => (name, change (shape.toJson v))).toList ++ rest.changed change slots := by
  cases slot <;> rfl

theorem ne_of_mem_changed {rest : Fields} {slots : rest.Slots} {name : String}
    (h : name ∉ rest.names) {m : String × Json} (hm : m ∈ rest.changed change slots) :
    m.1 ≠ name := by
  rintro rfl
  obtain ⟨m', hm', rfl⟩ := List.mem_map.mp hm
  exact h ((rest.sublist_names slots).subset (List.mem_map.mpr ⟨m', hm', rfl⟩))

/-- **The order of the members does not matter.** -/
theorem ofMemberList_eq_ok_iff_refills : (fs : Fields) → (slots slots' : fs.Slots) →
    fs.names.Nodup → ∀ {members : List (String × Json)}, members.Perm (fs.changed change slots) →
      (ofMemberList fs.ofMember fs.empty members = .ok slots' ↔ fs.Refills change slots slots')
  | nil, (), (), _, members, _ => iff_of_true (ofMemberList_nil members) trivial
  | cons name _ shape rest, (slot, slots), (slot', slots'), hnames, members, hperm => by
    obtain ⟨hname, hrest⟩ := List.nodup_cons.mp hnames
    have hothers : ∀ m ∈ rest.changed change slots, m.1 ≠ name := fun _ =>
      ne_of_mem_changed hname
    have hnone : (rest.changed change slots).filter (fun m => m.1 = name) = [] :=
      List.filter_eq_nil_iff.mpr fun m hm => by simpa using hothers m hm
    have hall : (rest.changed change slots).filter (fun m => m.1 ≠ name) =
        rest.changed change slots :=
      List.filter_eq_self.mpr fun m hm => by simpa using hothers m hm
    have hsame := hperm.filter fun m => m.1 = name
    have hdifferent := hperm.filter fun m => m.1 ≠ name
    rw [changed_cons, List.filter_append, hnone, List.append_nil] at hsame
    rw [changed_cons, List.filter_append, hall] at hdifferent
    have hfirst : members.filter (fun m => m.1 = name) =
        (slot.map fun v => (name, change (shape.toJson v))).toList := by
      cases slot with
      | none => exact hsame.eq_nil
      | some v =>
        rw [Option.map_some, Option.toList_some, List.filter_cons_of_pos (by simp)] at hsame
        exact List.perm_singleton.mp hsame
    have hothers : (members.filter fun m => m.1 ≠ name).Perm (rest.changed change slots) := by
      cases slot with
      | none => exact hdifferent
      | some v =>
        rw [Option.map_some, Option.toList_some, List.filter_cons_of_neg (by simp)] at hdifferent
        exact hdifferent
    rw [Fields.empty, ofMemberList_eq_ok_iff, hfirst,
      rest.ofMemberList_eq_ok_iff_refills slots slots' hrest hothers]
    rfl

theorem changed_id (fs : Fields) (slots : fs.Slots) : fs.changed id slots = fs.members slots :=
  List.map_id _

end Fields

mutual

/-- **The JSON value of a plain value stands for it.** -/
theorem Shape.ofJson_toJson : (s : Shape) → (depth : Nat) → (v : s.Value) → s.Plain depth v →
    s.ofJson (s.toJson v) = .ok v
  | .any, _, _, _ => rfl
  | .text, _, _, _ => rfl
  | .path, _, _, _ => rfl
  | .flag, _, _, _ => rfl
  | .integer _, _, _, _ => IntegerKind.ofNumber_eq_ok_iff.mpr rfl
  | .optional _, _, none, _ => rfl
  | .optional item, depth, some v, h => by
    have hitem := item.ofJson_toJson depth v h.1
    show (Shape.optional item).ofJson (item.toJson v) = _
    rw [Shape.ofJson, hitem]
    · rfl
    · exact h.2
  | .list item, depth + 1, vs, h => by
    have hitems : ofItems item.ofJson (vs.map item.toJson) = .ok (vs.map id) :=
      ofItems_map fun v hv => item.ofJson_toJson depth v (h v hv)
    rwa [List.map_id] at hitems
  | .record _ fields, depth + 1, values, h => by
    have hnodup := h.1.sublist (fields.sublist_names (fields.filled values))
    have hrefills := fields.refills_self depth _ h.2
    refine ofJson_record_eq_ok_iff.mpr ⟨_, ?_, fields.complete_filled values⟩
    refine (fields.ofMemberList_eq_ok_iff_refills _ _ h.1 ?_).mpr hrefills
    rw [fields.changed_id, fields.toMembers_eq]
    exact perm_foldl_insertMember hnodup

theorem Fields.refills_self : (fs : Fields) → (depth : Nat) → (slots : fs.Slots) →
    fs.Plain depth slots → fs.Refills id slots slots
  | .nil, _, (), _ => trivial
  | .cons _ _ _ rest, depth, (none, slots), h => ⟨.absent, rest.refills_self depth slots h⟩
  | .cons _ _ shape rest, depth, (some v, slots), h =>
    ⟨.present (shape.ofJson_toJson depth v h.1), rest.refills_self depth slots h.2⟩

end

/-! ### From the text -/

section Read

variable {depth : Nat}

theorem firstByte_cons {b : UInt8} (h : isBlankByte b = false) (rest : Bytes) :
    firstByte (b :: rest) = .ok (b, rest) := by
  rw [firstByte, skipBlanks_cons h]

theorem reads_readText (s : Shape) (text : String) :
    Reads (readText s) (stringChars text) text := by
  refine ⟨rfl, fun rest _ => ?_⟩
  have hread : ∀ input, readText s (byte '"' :: input) = readString input := fun _ => rfl
  rw [encode_stringChars, hread, readString_encode]

theorem reads_readFlag (b : Bool) : Reads readFlag (bool b).chars b := by
  cases b with
  | false => exact reads_word rfl rfl fun _ => rfl
  | true => exact reads_word rfl rfl fun _ => rfl

section Numeral

variable {α : Type} {use : Number → Except Mismatch α} {x : α} {n : Number} {rest rest' : Bytes}

theorem readNumeral_minus (s : Shape) (hread : readNumber true rest = .ok (n, rest'))
    (huse : use n = .ok x) : readNumeral s use (byte '-' :: rest) = .ok (x, rest') := by
  have hsign : firstByte (byte '-' :: rest) = .ok (byte '-', rest) := firstByte_cons rfl rest
  simp only [readNumeral, hsign, hread, huse, bind, Except.bind, pure, Except.pure, true_or,
    if_true, decide_true]

theorem readNumeral_digit (s : Shape) {b : UInt8} (hdigit : isDigit b = true)
    (hread : readNumber false (b :: rest) = .ok (n, rest')) (huse : use n = .ok x) :
    readNumeral s use (b :: rest) = .ok (x, rest') := by
  have hfirst := firstByte_cons (isBlankByte_of_isDigit hdigit) rest
  have hsign : b ≠ byte '-' := ne_of_isDigit hdigit (by decide)
  simp only [readNumeral, hfirst, hdigit, hsign, hread, huse, bind, Except.bind, pure, Except.pure,
    or_true, if_true, if_false, decide_false]

theorem reads_readNumeral_natural (s : Shape) {n : UInt64} (h : use (.natural n) = .ok x) :
    Reads (readNumeral s use) (Number.natural n).chars x := by
  refine ⟨beginsValue_decimal _, fun rest hrest => ?_⟩
  have hread := readNumber_natural n hrest
  obtain ⟨b, bytes, hbytes, hb⟩ := exists_encode_decimal n.toNat
  rw [Number.chars, hbytes, List.cons_append] at hread ⊢
  exact readNumeral_digit s hb hread h

theorem reads_readNumeral_negative (s : Shape) {n : Fin (Nat.pow 2 63)}
    (h : use (.negative n) = .ok x) :
    Reads (readNumeral s use) (Number.negative n).chars x := by
  refine ⟨rfl, fun rest hrest => ?_⟩
  rw [Number.chars, encode_cons (by decide), List.cons_append]
  exact readNumeral_minus s (readNumber_negative n hrest) h

end Numeral

theorem reads_readNumeral {kind : IntegerKind} (v : kind.Value) :
    Reads (readNumeral (.integer kind) kind.ofNumber) (kind.toNumber v).chars v := by
  have hread := IntegerKind.ofNumber_eq_ok_iff.mpr (rfl : kind.toNumber v = _)
  obtain ⟨n, hn⟩ | ⟨n, hn⟩ := IntegerKind.toNumber_cases v
  · rw [hn] at hread ⊢
    exact reads_readNumeral_natural _ hread
  · rw [hn] at hread ⊢
    exact reads_readNumeral_negative _ hread

/-- Only null begins with its letter. -/
theorem readWord_of_n {text : List Char} {v : Json} {bytes : Bytes}
    (h : Reads (readValue depth) text v) (hbytes : Utf8.encode text = byte 'n' :: bytes)
    {rest : Bytes} (hrest : endsNumber rest = true) :
    v = null ∧ readWord ['u', 'l', 'l'] (bytes ++ rest) = .ok rest := by
  have hread := h.read rest hrest
  have hword : readValue depth (byte 'n' :: (bytes ++ rest)) =
      (readWord ['u', 'l', 'l'] (bytes ++ rest)).map (null, ·) := by
    rw [readValue]
    rfl
  rw [hbytes, List.cons_append, hword] at hread
  cases hleft : readWord ['u', 'l', 'l'] (bytes ++ rest) with
  | error f =>
    rw [hleft] at hread
    cases hread
  | ok left =>
    rw [hleft] at hread
    obtain ⟨hnull, hsame⟩ := Prod.mk.inj (Except.ok.inj hread)
    exact ⟨hnull.symm, congrArg Except.ok hsame⟩

theorem ne_n_of_ne_null {s : Shape} {v : s.Value} (h : s.Plain depth v) (hnull : s.toJson v ≠ null)
    {b : UInt8} {bytes : Bytes} (hbytes : Utf8.encode (s.chars v) = b :: bytes) : b ≠ byte 'n' := by
  rintro rfl
  have hread := s.reads_toJson depth v h
  exact hnull (readWord_of_n hread hbytes (rfl : endsNumber [] = true)).1

theorem reads_optional {item : Shape} {v : item.Value} (h : item.Plain depth v)
    (hnull : item.toJson v ≠ null) (hitem : Reads (item.read depth) (item.chars v) v) :
    Reads ((Shape.optional item).read depth) (item.chars v) (some v) := by
  refine ⟨hitem.begins, fun rest hrest => ?_⟩
  have hread := hitem.read rest hrest
  obtain ⟨b, bytes, hbytes, hblank, -⟩ := exists_cons_of_beginsValue hitem.begins
  have hn := ne_n_of_ne_null h hnull hbytes
  rw [hbytes, List.cons_append] at hread ⊢
  rw [Shape.read, skipBlanks_cons hblank]
  dsimp only
  rw [if_neg hn, hread]
  rfl

theorem reads_none (item : Shape) : Reads ((Shape.optional item).read depth) null.chars none :=
  reads_word rfl rfl fun input => by rw [Shape.read]; rfl

theorem read_list (item : Shape) (input : Bytes) :
    (Shape.list item).read (depth + 1) (byte '[' :: input) = (do
      let (items, rest) ← readItems (item.read depth) (input.length + 1) true [] input
      let rest ← endArray rest
      pure (items, rest)) := by
  rw [Shape.read]
  rfl

theorem reads_list {item : Shape} {vs : List item.Value}
    (h : ∀ v ∈ vs, Reads (item.read depth) (item.chars v) v) :
    Reads ((Shape.list item).read (depth + 1))
      ('[' :: commaSeparated (vs.map item.chars) ++ [']']) vs := by
  refine ⟨rfl, fun rest _ => ?_⟩
  have hfuel := length_lt_fuel (fun v hv => ne_nil_of_beginsValue (h v hv).begins)
    (byte ']' :: rest)
  have hitems := readItems_commaSeparated h hfuel rest
  rw [List.map_id'] at hitems
  rw [encode_brackets (by decide) (by decide), read_list, hitems]
  rfl

theorem read_record (title : String) (fields : Fields) (input : Bytes) :
    (Shape.record title fields).read (depth + 1) (byte '\x7b' :: input) = (do
      let (slots, rest) ←
        readMembers (fields.readMember depth) (input.length + 1) true fields.empty input
      match fields.complete slots with
      | .error m => .error (.behind (.mistyped m) (afterObject rest))
      | .ok values =>
        let rest ← endObject rest
        pure (values, rest)) := by
  rw [Shape.read]
  rfl

/-- Members that fill the fields of a record. -/
theorem reads_members {title : String} {fields : Fields} {texts : List (String × List Char)}
    {values : fields.Values}
    (h : ∃ slots, Gathers (fields.readMember depth) fields.empty texts slots ∧
      fields.complete slots = .ok values) :
    Reads ((Shape.record title fields).read (depth + 1))
      ('\x7b' :: commaSeparated (texts.map memberText) ++ ['\x7d']) values := by
  obtain ⟨slots, hgathers, hcomplete⟩ := h
  refine ⟨rfl, fun rest _ => ?_⟩
  have hfuel := length_lt_fuel (fun m (_ : m ∈ texts) => memberText_ne_nil m)
    (byte '\x7d' :: rest)
  rw [encode_brackets (by decide) (by decide), read_record,
    readMembers_commaSeparated hgathers hfuel]
  show (match fields.complete slots with | .error m => _ | .ok values => _) = _
  rw [hcomplete]
  rfl

theorem reads_record {title : String} {fields : Fields} {values : fields.Values}
    (h : Gathers (fields.readMember depth) fields.empty (fields.texts (fields.filled values))
      (fields.filled values)) :
    Reads ((Shape.record title fields).read (depth + 1))
      ('\x7b' :: commaSeparated (fields.memberChars values) ++ ['\x7d']) values := by
  rw [fields.memberChars_eq]
  exact reads_members ⟨_, h, fields.complete_filled values⟩

section Field

variable {name : String} {required : Bool} {shape : Shape} {rest : Fields}

theorem readMember_of_ne {slot : Option shape.Value} {slots : rest.Slots} {key : String}
    (input : Bytes) (h : key ≠ name) :
    (Fields.cons name required shape rest).readMember depth (slot, slots) key input =
      (rest.readMember depth slots key input).map fun (slots, input) => ((slot, slots), input) := by
  rw [Fields.readMember, if_neg h]

theorem readMember_self {v : shape.Value} {text : List Char}
    (h : Reads (shape.read depth) text v) (slots : rest.Slots) {input : Bytes}
    (hinput : endsNumber input = true) :
    (Fields.cons name required shape rest).readMember depth (none, slots) name
        (Utf8.encode (':' :: text) ++ input) =
      .ok ((some v, slots), input) := by
  rw [Fields.readMember, if_pos rfl, Option.isSome_none, if_neg Bool.false_ne_true,
    readColon_encode]
  show (shape.read depth (Utf8.encode text ++ input) >>= _) = _
  rw [h.read input hinput]
  rfl

/-- Members of other names pass by a field. -/
theorem gathers_behind {slot : Option shape.Value} {slots slots' : rest.Slots}
    {members : List (String × List Char)}
    (h : Gathers (rest.readMember depth) slots members slots')
    (hname : name ∉ members.map Prod.fst) :
    Gathers ((Fields.cons name required shape rest).readMember depth) (slot, slots) members
      (slot, slots') := by
  induction h with
  | done slots => exact .done _
  | next hread _ ih =>
    rw [List.map_cons, List.mem_cons, not_or] at hname
    refine .next (fun input hinput => ?_) (ih hname.2)
    rw [readMember_of_ne _ (Ne.symm hname.1), hread input hinput]
    rfl

end Field

end Read

mutual

/-- **The text of a plain value reads as the value.** -/
theorem Shape.reads : (s : Shape) → (depth : Nat) → (v : s.Value) → s.Plain depth v →
    Reads (s.read depth) (s.chars v) v
  | .any, _, _, h => (reads_chars h).congr fun _ => by rw [Shape.read]
  | .text, _, s, _ => (reads_readText .text s).congr fun _ => by rw [Shape.read]
  | .path, _, s, _ => (reads_readText .path s).congr fun _ => by rw [Shape.read]
  | .flag, _, b, _ => (reads_readFlag b).congr fun _ => by rw [Shape.read]
  | .integer _, _, v, _ => (reads_readNumeral v).congr fun _ => by rw [Shape.read]
  | .optional item, _, none, _ => reads_none item
  | .optional item, depth, some v, h => reads_optional h.1 h.2 (item.reads depth v h.1)
  | .list item, depth + 1, _, h => reads_list fun v hv => item.reads depth v (h v hv)
  | .record _ fields, depth + 1, values, h =>
    reads_record (fields.gathers depth (fields.filled values) h.1 h.2)

/-- Each member goes into its field. -/
theorem Fields.gathers : (fs : Fields) → (depth : Nat) → (slots : fs.Slots) → fs.names.Nodup →
    fs.Plain depth slots → Gathers (fs.readMember depth) fs.empty (fs.texts slots) slots
  | .nil, _, (), _, _ => .done ()
  | .cons name _ shape rest, depth, (slot, slots), hnames, h => by
    obtain ⟨hname, hrest⟩ := List.nodup_cons.mp hnames
    have hnone : name ∉ (rest.texts slots).map Prod.fst := by
      rw [rest.map_fst_texts slots]
      exact fun hmem => hname ((rest.sublist_names slots).subset hmem)
    cases slot with
    | none => exact gathers_behind (rest.gathers depth slots hrest h) hnone
    | some v =>
      exact .next (fun _ => readMember_self (shape.reads depth v h.1) rest.empty)
        (gathers_behind (rest.gathers depth slots hrest h.2) hnone)

end

/-! ### Types with a JSON form -/

section Shaped

variable {α : Type} [Shaped α]

/-- A value that is read back: it is plain, and nothing of it is lost to its shape. -/
structure Legible (depth : Nat) (x : α) : Prop where
  plain : (Shaped.shape α).Plain depth (Shaped.toValue x)
  ofValue : Shaped.ofValue (Shaped.toValue x) = x

variable {x : α}

theorem readWhole_encode {β : Type} {reader : Bytes → Except Fault (β × Bytes)} {text : List Char}
    {v : β} (h : Reads reader text v) : readWhole reader (Utf8.encode text) = .ok v := by
  have hread := h.read [] rfl
  rw [List.append_nil] at hread
  rw [readWhole, hread]
  rfl

theorem Legible.plain_toJson {depth : Nat} (h : Legible depth x) : (toJson x).Plain depth :=
  (Shaped.shape α).plain_toJson depth _ h.plain

theorem legible_string (depth : Nat) (s : String) : Legible depth s := ⟨trivial, rfl⟩

theorem legible_int32 (depth : Nat) (i : Int32) : Legible depth i := ⟨trivial, rfl⟩

theorem legible_nat64 (depth : Nat) (n : UInt64) : Legible depth n := ⟨trivial, rfl⟩

theorem legible_list {depth : Nat} {xs : List α} (h : ∀ x ∈ xs, Legible depth x) :
    Legible (depth + 1) xs := by
  refine ⟨fun v hv => ?_, ?_⟩
  · obtain ⟨x, hx, rfl⟩ := List.mem_map.mp hv
    exact (h x hx).plain
  · show (xs.map Shaped.toValue).map Shaped.ofValue = xs
    rw [List.map_map]
    exact (List.map_congr_left fun x hx => (h x hx).ofValue).trans (List.map_id xs)

/-- **The text of a value reads as its JSON value.** -/
theorem parse_bytesOf (h : Legible maxDepth x) : parse (bytesOf x) = .ok (toJson x) :=
  readWhole_encode ((Shaped.shape α).reads_toJson maxDepth _ h.plain)

/-- **The JSON value of a value stands for it.** -/
theorem fromJson?_toJson {depth : Nat} (h : Legible depth x) : fromJson? (toJson x) = .ok x := by
  rw [fromJson?, toJson, (Shaped.shape α).ofJson_toJson depth _ h.plain]
  exact congrArg Except.ok h.ofValue

/-- **The text of a value reads as the value.** -/
theorem fromText_bytesOf (h : Legible maxDepth x) : fromText (bytesOf x) = .ok x := by
  rw [fromText, bytesOf, charsOf, readWhole_encode ((Shaped.shape α).reads maxDepth _ h.plain)]
  exact congrArg Except.ok h.ofValue

end Shaped

end Json

end PlatformProxy
