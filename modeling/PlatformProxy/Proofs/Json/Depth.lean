import PlatformProxy.Proofs.Json.Doubles
import PlatformProxy.Proofs.Json.RoundTrip

/-!
# How deep a text may nest

A reader of values has a budget: the number of arrays and objects that may stand within one
another. What is written for a value is read, if and only if the value is not deeper than that, and
nothing deeper comes of any text. Nothing else can keep a value from being read, whatever its
numbers, its strings and the names of its members are. What is read differs from it in its doubles,
and in the members of its objects if their names are not in order.

Both directions go by induction on the budget. A value that is too deep has a part that is too deep
for what is left of the budget, and everything in front of this part is read.

## Main definitions

* `Json.depth` — how many arrays and objects stand within one another
* `Json.reread` — what the text of a value is read as
* `Json.Fails` — a reader refuses a text, whatever follows

## Main results

* `Json.reads_reread` — a value within the budget is read
* `Json.depth_le_of_readValue` — whatever is read is within the budget
* `Json.fails_of_lt_depth` — a value past the budget is refused
-/

namespace PlatformProxy

namespace Json

mutual

/-- How many arrays and objects stand within one another. -/
def depth : Json → Nat
  | null | bool _ | number _ | string _ => 0
  | array items => itemsDepth items + 1
  | object members => membersDepth members + 1

def itemsDepth : List Json → Nat
  | [] => 0
  | v :: items => max v.depth (itemsDepth items)

def membersDepth : List (String × Json) → Nat
  | [] => 0
  | (_, v) :: members => max v.depth (membersDepth members)

end

theorem itemsDepth_le_iff {items : List Json} {d : Nat} :
    itemsDepth items ≤ d ↔ ∀ v ∈ items, v.depth ≤ d := by
  induction items with
  | nil => simp [itemsDepth]
  | cons v items ih => rw [itemsDepth, Nat.max_le, ih, List.forall_mem_cons]

theorem membersDepth_le_iff {members : List (String × Json)} {d : Nat} :
    membersDepth members ≤ d ↔ ∀ m ∈ members, m.2.depth ≤ d := by
  induction members with
  | nil => simp [membersDepth]
  | cons m members ih => rw [membersDepth, Nat.max_le, ih, List.forall_mem_cons]

theorem depth_array_le {items : List Json} {d : Nat} :
    (array items).depth ≤ d + 1 ↔ ∀ v ∈ items, v.depth ≤ d := by
  rw [depth, Nat.add_le_add_iff_right, itemsDepth_le_iff]

theorem depth_object_le {members : List (String × Json)} {d : Nat} :
    (object members).depth ≤ d + 1 ↔ ∀ m ∈ members, m.2.depth ≤ d := by
  rw [depth, Nat.add_le_add_iff_right, membersDepth_le_iff]

/-! ### Within the budget -/

/-- What the text of a number is read as. Integers are read as they are, and a double as some
number. -/
def Number.reread (n : Number) : Json :=
  match readWhole (readValue 0) (Utf8.encode n.chars) with
  | .ok v => v
  | .error _ => null

mutual

/-- What the text of a value is read as, if the budget allows. -/
def reread : Json → Json
  | null => null
  | bool b => bool b
  | number n => n.reread
  | string s => string s
  | array items => array (rereadItems items)
  | object members => ofMembers (rereadMembers members)

def rereadItems : List Json → List Json
  | [] => []
  | v :: items => v.reread :: rereadItems items

def rereadMembers : List (String × Json) → List (String × Json)
  | [] => []
  | (name, v) :: members => (name, v.reread) :: rereadMembers members

end

theorem rereadItems_eq (items : List Json) : rereadItems items = items.map reread := by
  induction items with
  | nil => rfl
  | cons v items ih => rw [rereadItems, ih, List.map_cons]

theorem rereadMembers_eq (members : List (String × Json)) :
    rereadMembers members = members.map fun m => (m.1, m.2.reread) := by
  induction members with
  | nil => rfl
  | cons m members ih => rw [rereadMembers, ih, List.map_cons]

section Reread

variable {d : Nat}

theorem reads_number (d : Nat) (n : Number) : Reads (readValue d) n.chars n.reread := by
  obtain ⟨v, hv⟩ : ∃ v, ∀ d, Reads (readValue d) n.chars v := by
    cases n with
    | natural n => exact ⟨_, fun d => reads_natural d n⟩
    | negative n => exact ⟨_, fun d => reads_negative d n⟩
    | real x hx =>
      obtain ⟨n, hn⟩ := reads_real x hx
      exact ⟨_, hn⟩
  rw [Number.reread, readWhole_encode (hv 0)]
  exact hv d

/-- Members are gathered one after the other, whatever their names are. -/
theorem gathers_reread {members : List (String × Json)}
    (h : ∀ m ∈ members, Reads (readValue d) m.2.chars m.2.reread) (acc : List (String × Json)) :
    Gathers (readMember d) acc (members.map fun m => (m.1, m.2.chars))
      ((rereadMembers members).foldl (fun acc m => insertMember m.1 m.2 acc) acc) := by
  induction members generalizing acc with
  | nil => exact .done acc
  | cons m members ih =>
    obtain ⟨hm, hmembers⟩ := List.forall_mem_cons.mp h
    exact .next (fun _ => readMember_of_reads hm acc m.1) (ih hmembers _)

/-- **A value within the budget is read.** -/
theorem reads_reread {v : Json} (h : v.depth ≤ d) : Reads (readValue d) v.chars v.reread := by
  induction d using Nat.strongRecOn generalizing v with
  | ind d ih =>
    have hpos : 0 < v.depth → ∃ d', d = d' + 1 := fun hdepth =>
      Nat.exists_eq_add_one.mpr (Nat.lt_of_lt_of_le hdepth h)
    cases v with
    | null => exact reads_null d
    | bool b => exact reads_bool d b
    | number n => exact reads_number d n
    | string s => exact reads_string d s
    | array items =>
      obtain ⟨d, rfl⟩ := hpos (Nat.succ_pos _)
      rw [chars, itemChars_eq, reread, rereadItems_eq]
      exact reads_array fun v hv => ih d d.lt_succ_self (depth_array_le.mp h v hv)
    | object members =>
      obtain ⟨d, rfl⟩ := hpos (Nat.succ_pos _)
      rw [chars, memberChars_eq, reread]
      refine reads_object (gathers_reread (fun m hm => ?_) [])
      exact ih d d.lt_succ_self (depth_object_le.mp h m hm)

/-- There is one value only that a text is read as. -/
theorem Reads.unique {α : Type} {reader : Bytes → Except Fault (α × Bytes)} {text : List Char}
    {v w : α} (hv : Reads reader text v) (hw : Reads reader text w) : v = w :=
  congrArg Prod.fst (Except.ok.inj ((hv.read [] rfl).symm.trans (hw.read [] rfl)))

theorem depth_le_of_plain {v : Json} (h : v.Plain d) : v.depth ≤ d := by
  induction h with
  | array _ ih => exact depth_array_le.mpr ih
  | object _ _ ih => exact depth_object_le.mpr ih
  | _ => exact Nat.zero_le _

/-- Nothing is lost of a value without doubles. -/
theorem reread_of_plain {v : Json} (h : v.Plain d) : v.reread = v :=
  (reads_reread (depth_le_of_plain h)).unique (reads_chars h)

end Reread

/-- An optional value within the budget. A value that is read as null may be taken for none. -/
theorem exists_reads_optional {d : Nat} {v : Json} (h : v.depth ≤ d) :
    ∃ slot : Option Json, slot.getD null = v.reread ∧
      Reads ((Shape.optional .any).read d) v.chars slot := by
  have hw := reads_reread h
  obtain ⟨b, bytes, hbytes, hblank, -⟩ := exists_cons_of_beginsValue hw.begins
  have hread : ∀ rest, (Shape.optional .any).read d (Utf8.encode v.chars ++ rest) =
      if b = byte 'n' then (readWord ['u', 'l', 'l'] (bytes ++ rest)).map (none, ·)
      else (readValue d (Utf8.encode v.chars ++ rest)).map fun read => (some read.1, read.2) := by
    intro rest
    rw [hbytes, List.cons_append, Shape.read, skipBlanks_cons hblank]
    dsimp only
    rw [Shape.read]
  by_cases hn : b = byte 'n'
  · subst hn
    refine ⟨none, (readWord_of_n hw hbytes (rfl : endsNumber [] = true)).1.symm, hw.begins,
      fun rest hrest => ?_⟩
    rw [hread, if_pos rfl, (readWord_of_n hw hbytes hrest).2]
    rfl
  · refine ⟨some v.reread, rfl, hw.begins, fun rest hrest => ?_⟩
    rw [hread, if_neg hn, hw.read rest hrest]
    rfl

/-! ### What is read -/

/-- What is true of whatever a reader reads is true of the items of an array. -/
theorem forall_of_readItems {α : Type} {P : α → Prop} {item : Bytes → Except Fault (α × Bytes)}
    (hitem : ∀ {input v rest}, item input = .ok (v, rest) → P v) {fuel : Nat} {first : Bool}
    {acc vs : List α} {input rest : Bytes} (hacc : ∀ v ∈ acc, P v)
    (h : readItems item fuel first acc input = .ok (vs, rest)) : ∀ v ∈ vs, P v := by
  fun_induction readItems item fuel first acc input with
  | case3 =>
    obtain ⟨rfl, -⟩ := Prod.mk.inj (Except.ok.inj h)
    simpa using hacc
  | case5 _ _ _ _ _ _ _ _ hv ih =>
    exact ih (List.forall_mem_cons.mpr ⟨hitem hv, hacc⟩) h
  | _ => cases h

/-- What each member preserves is preserved by an object. -/
theorem of_readMembers {σ : Type} {P : σ → Prop}
    {member : σ → String → Bytes → Except Fault (σ × Bytes)}
    (hmember : ∀ {acc name input acc' rest}, P acc → member acc name input = .ok (acc', rest) →
      P acc') {fuel : Nat} {first : Bool} {acc acc' : σ} {input rest : Bytes} (hacc : P acc)
    (h : readMembers member fuel first acc input = .ok (acc', rest)) : P acc' := by
  fun_induction readMembers member fuel first acc input with
  | case3 =>
    obtain ⟨rfl, -⟩ := Prod.mk.inj (Except.ok.inj h)
    exact hacc
  | case6 _ _ _ _ _ _ _ _ _ _ _ hv ih => exact ih (hmember hacc hv) h
  | _ => cases h

theorem depth_le_of_map_eq_ok {α : Type} {result : Except Fault α} {read : α → Json × Bytes}
    {v : Json} {rest : Bytes} (h : result.map read = .ok (v, rest))
    (hread : ∀ x, (read x).1.depth = 0) (d : Nat) : v.depth ≤ d := by
  obtain ⟨x, -, hx⟩ := exists_of_map_eq_ok h
  have hzero := hread x
  rw [hx] at hzero
  exact hzero.le.trans (Nat.zero_le d)

theorem membersDepth_insertMember_le {name : String} {v : Json} {members : List (String × Json)}
    {d : Nat} (hv : v.depth ≤ d) (h : membersDepth members ≤ d) :
    membersDepth (insertMember name v members) ≤ d := by
  rw [membersDepth_le_iff] at h ⊢
  intro m hm
  rcases mem_insertMember hm with rfl | hm
  · exact hv
  · exact h m hm

theorem membersDepth_le_of_readMember {d : Nat}
    (hread : ∀ {input rest v}, readValue d input = .ok (v, rest) → v.depth ≤ d)
    {acc acc' : List (String × Json)} {name : String} {input rest : Bytes}
    (hacc : membersDepth acc ≤ d) (h : readMember d acc name input = .ok (acc', rest)) :
    membersDepth acc' ≤ d := by
  obtain ⟨_, -, h⟩ := exists_of_bind_eq_ok h
  obtain ⟨⟨w, _⟩, hw, h⟩ := exists_of_bind_eq_ok h
  obtain ⟨rfl, -⟩ := Prod.mk.inj (Except.ok.inj h)
  exact membersDepth_insertMember_le (hread hw) hacc

/-- **What is read is within the budget.** -/
theorem depth_le_of_readValue {d : Nat} {input rest : Bytes} {v : Json}
    (h : readValue d input = .ok (v, rest)) : v.depth ≤ d := by
  induction d using Nat.strongRecOn generalizing input rest v with
  | ind d ih =>
    rw [readValue] at h
    split at h
    · cases h
    · split_ifs at h
      · exact depth_le_of_map_eq_ok h (fun _ => rfl) d
      · exact depth_le_of_map_eq_ok h (fun _ => rfl) d
      · exact depth_le_of_map_eq_ok h (fun _ => rfl) d
      · exact depth_le_of_map_eq_ok h (fun _ => rfl) d
      · exact depth_le_of_map_eq_ok h (fun _ => rfl) d
      · exact depth_le_of_map_eq_ok h (fun _ => rfl) d
      · split at h
        · cases h
        · obtain ⟨⟨items, _⟩, hitems, h⟩ := exists_of_bind_eq_ok h
          obtain ⟨_, -, h⟩ := exists_of_bind_eq_ok h
          obtain ⟨rfl, -⟩ := Prod.mk.inj (Except.ok.inj h)
          exact depth_array_le.mpr
            (forall_of_readItems (ih _ (Nat.lt_succ_self _)) (List.forall_mem_nil _) hitems)
      · split at h
        · cases h
        · obtain ⟨⟨members, _⟩, hmembers, h⟩ := exists_of_bind_eq_ok h
          obtain ⟨_, -, h⟩ := exists_of_bind_eq_ok h
          obtain ⟨rfl, -⟩ := Prod.mk.inj (Except.ok.inj h)
          exact Nat.succ_le_succ (of_readMembers
            (membersDepth_le_of_readMember (ih _ (Nat.lt_succ_self _))) (Nat.zero_le _) hmembers)

theorem exists_of_readWhole_eq_ok {α : Type} {reader : Bytes → Except Fault (α × Bytes)}
    {input : Bytes} {v : α} (h : readWhole reader input = .ok v) :
    ∃ rest, reader input = .ok (v, rest) := by
  rw [readWhole] at h
  split at h
  · cases h
  · rename_i w rest hread
    split at h
    · obtain rfl := Except.ok.inj h
      exact ⟨rest, hread⟩
    · cases h

theorem depth_le_of_parse {input : Bytes} {v : Json} (h : parse input = .ok v) :
    v.depth ≤ maxDepth := by
  obtain ⟨rest, hread⟩ := exists_of_readWhole_eq_ok h
  exact depth_le_of_readValue hread

/-! ### Past the budget -/

/-- A reader refuses a text, unless it stands in front of what continues a number. -/
structure Fails {α : Type} (reader : Bytes → Except Fault (α × Bytes)) (text : List Char) :
    Prop where
  begins : beginsValue text = true
  read : ∀ rest, endsNumber rest = true → ∃ f, reader (Utf8.encode text ++ rest) = .error f

section Refused

variable {α : Type} {reader : Bytes → Except Fault (α × Bytes)} {t : List Char}

theorem Fails.not_reads (h : Fails reader t) (v : α) : ¬ Reads reader t v := by
  intro hreads
  obtain ⟨f, hf⟩ := h.read [] rfl
  cases (hreads.read [] rfl).symm.trans hf

theorem readWhole_of_fails (h : Fails reader t) (v : α) :
    readWhole reader (Utf8.encode t) ≠ .ok v := by
  obtain ⟨f, hf⟩ := h.read [] rfl
  rw [List.append_nil] at hf
  rw [readWhole, hf]
  intro heq
  cases heq

/-- A text is read as some value, or refused. -/
def Settles (reader : Bytes → Except Fault (α × Bytes)) (t : List Char) : Prop :=
  (∃ v, Reads reader t v) ∨ Fails reader t

theorem Settles.begins (h : Settles reader t) : beginsValue t = true :=
  h.elim (fun ⟨_, hreads⟩ => hreads.begins) Fails.begins

/-- What is read is not what is refused. -/
theorem exists_fails_behind {ι : Type} (text : ι → List Char) {x : ι} {xs : List ι} {v : α}
    (hread : Reads reader (text x) v) (h : ∃ y ∈ x :: xs, Fails reader (text y)) :
    ∃ y ∈ xs, Fails reader (text y) := by
  obtain ⟨y, hy, hfails⟩ := h
  rcases List.mem_cons.mp hy with rfl | hy
  · exact absurd hread (hfails.not_reads v)
  · exact ⟨y, hy, hfails⟩

end Refused

section Items

variable {ι α : Type} {item : Bytes → Except Fault (α × Bytes)} {text : ι → List Char}

/-- An item that is refused, behind some that are not. -/
theorem readItems_fails {xs : List ι} (h : ∀ x ∈ xs, Settles item (text x))
    (hfails : ∃ x ∈ xs, Fails item (text x)) {first : Bool} {input rest : Bytes}
    (hinput : ∀ x others, xs = x :: others → nextItem first input =
      .ok (some (Utf8.encode (text x) ++
        (Utf8.encode (others.flatMap fun x => ',' :: text x) ++ byte ']' :: rest))))
    (fuel : Nat) (acc : List α) : ∃ f, readItems item fuel first acc input = .error f := by
  induction fuel generalizing xs first input acc with
  | zero => exact ⟨_, rfl⟩
  | succ fuel ih =>
    cases xs with
    | nil => exact absurd hfails (by simp)
    | cons x xs =>
      obtain ⟨hx, hxs⟩ := List.forall_mem_cons.mp h
      have hnext := hinput x xs rfl
      have hends : endsNumber (Utf8.encode (xs.flatMap fun x => ',' :: text x) ++
          byte ']' :: rest) = true := endsNumber_flatMap xs rfl
      rcases hx with ⟨w, hw⟩ | hx
      · rw [readItems_next hnext (hw.read _ hends)]
        refine ih hxs (exists_fails_behind text hw hfails) ?_ _
        rintro y others rfl
        rw [List.flatMap_cons, List.cons_append, encode_cons (by decide), Utf8.encode_append,
          List.cons_append, List.append_assoc]
        exact nextItem_comma (hxs y List.mem_cons_self).begins _
      · obtain ⟨f, hf⟩ := hx.read _ hends
        refine ⟨f, ?_⟩
        rw [readItems, hnext]
        dsimp only
        rw [hf]

end Items

theorem fails_array {ι : Type} {d : Nat} {xs : List ι} {text : ι → List Char}
    (h : ∀ x ∈ xs, Settles (readValue d) (text x))
    (hfails : ∃ x ∈ xs, Fails (readValue d) (text x)) :
    Fails (readValue (d + 1)) ('[' :: commaSeparated (xs.map text) ++ [']']) := by
  refine ⟨rfl, fun rest _ => ?_⟩
  rw [encode_brackets (by decide) (by decide), readValue_array]
  have hitems : ∀ x others, xs = x :: others →
      nextItem true (Utf8.encode (commaSeparated (xs.map text)) ++ byte ']' :: rest) =
        .ok (some (Utf8.encode (text x) ++
          (Utf8.encode (others.flatMap fun x => ',' :: text x) ++ byte ']' :: rest))) := by
    rintro x others rfl
    rw [commaSeparated_map_cons, Utf8.encode_append, List.append_assoc]
    exact nextItem_of_beginsValue (h x List.mem_cons_self).begins _
  obtain ⟨f, hf⟩ := readItems_fails h hfails hitems _ []
  exact ⟨f, by rw [hf]; rfl⟩

section Members

variable {d : Nat} {members : List (String × List Char)}

theorem readMember_fails {text : List Char} (h : Fails (readValue d) text)
    (acc : List (String × Json)) (name : String) {rest : Bytes} (hrest : endsNumber rest = true) :
    ∃ f, readMember d acc name (Utf8.encode (':' :: text) ++ rest) = .error f := by
  obtain ⟨f, hf⟩ := h.read rest hrest
  refine ⟨f, ?_⟩
  rw [readMember, readColon_encode]
  show (readValue d (Utf8.encode text ++ rest) >>= _) = _
  rw [hf]
  rfl

theorem readMembers_fails (h : ∀ m ∈ members, Settles (readValue d) m.2)
    (hfails : ∃ m ∈ members, Fails (readValue d) m.2) {first : Bool} {input rest : Bytes}
    (hinput : ∀ m others, members = m :: others → nextKey first input =
      .ok (some (Utf8.encode (m.1.toList.flatMap escapedChar ++ ['"']) ++
        (Utf8.encode (':' :: m.2) ++
          (Utf8.encode (others.flatMap fun m => ',' :: memberText m) ++ byte '\x7d' :: rest)))))
    (fuel : Nat) (acc : List (String × Json)) :
    ∃ f, readMembers (readMember d) fuel first acc input = .error f := by
  induction fuel generalizing members first input acc with
  | zero => exact ⟨_, rfl⟩
  | succ fuel ih =>
    cases members with
    | nil => exact absurd hfails (by simp)
    | cons m members =>
      obtain ⟨hm, hmembers⟩ := List.forall_mem_cons.mp h
      have hkey := hinput m members rfl
      have hends : endsNumber (Utf8.encode (members.flatMap fun m => ',' :: memberText m) ++
          byte '\x7d' :: rest) = true := endsNumber_flatMap members rfl
      rcases hm with ⟨w, hw⟩ | hm
      · rw [readMembers_next hkey (readMember_of_reads hw acc m.1 hends)]
        refine ih hmembers (exists_fails_behind Prod.snd hw hfails) ?_ _
        rintro m' others rfl
        rw [List.flatMap_cons, List.cons_append, encode_cons (by decide), Utf8.encode_append,
          List.cons_append, List.append_assoc]
        exact nextKey_comma m' _
      · obtain ⟨f, hf⟩ := readMember_fails hm acc m.1 hends
        refine ⟨f, ?_⟩
        rw [readMembers, hkey]
        dsimp only
        rw [readString_encode]
        dsimp only
        rw [hf]

theorem fails_object (h : ∀ m ∈ members, Settles (readValue d) m.2)
    (hfails : ∃ m ∈ members, Fails (readValue d) m.2) :
    Fails (readValue (d + 1))
      ('\x7b' :: commaSeparated (members.map memberText) ++ ['\x7d']) := by
  refine ⟨rfl, fun rest _ => ?_⟩
  rw [encode_brackets (by decide) (by decide), readValue_object]
  have hmembers : ∀ m others, members = m :: others →
      nextKey true (Utf8.encode (commaSeparated (members.map memberText)) ++ byte '\x7d' :: rest) =
        .ok (some (Utf8.encode (m.1.toList.flatMap escapedChar ++ ['"']) ++
          (Utf8.encode (':' :: m.2) ++
            (Utf8.encode (others.flatMap fun m => ',' :: memberText m) ++
              byte '\x7d' :: rest)))) := by
    rintro m others rfl
    rw [commaSeparated_map_cons, Utf8.encode_append, List.append_assoc]
    exact nextKey_memberText m _
  obtain ⟨f, hf⟩ := readMembers_fails h hfails hmembers _ []
  exact ⟨f, by rw [hf]; rfl⟩

end Members

/-- Nothing is opened without a budget. -/
theorem fails_of_no_budget {v : Json} (h : 0 < v.depth) : Fails (readValue 0) v.chars := by
  cases v with
  | array items =>
    refine ⟨rfl, fun rest _ => ?_⟩
    rw [chars, encode_brackets (by decide) (by decide), readValue]
    exact ⟨_, rfl⟩
  | object members =>
    refine ⟨rfl, fun rest _ => ?_⟩
    rw [chars, encode_brackets (by decide) (by decide), readValue]
    exact ⟨_, rfl⟩
  | _ => exact absurd h (Nat.lt_irrefl 0)

/-- **A value past the budget is refused.** -/
theorem fails_of_lt_depth {v : Json} {d : Nat} (h : d < v.depth) : Fails (readValue d) v.chars := by
  induction d generalizing v with
  | zero => exact fails_of_no_budget h
  | succ d ih =>
    have hsettles : ∀ v : Json, Settles (readValue d) v.chars := fun v =>
      (Nat.lt_or_ge d v.depth).elim (fun h => .inr (ih h)) fun h => .inl ⟨_, reads_reread h⟩
    cases v with
    | array items =>
      have hdeep : ∃ v ∈ items, d < v.depth := by
        simpa using mt depth_array_le.mpr (Nat.not_le.mpr h)
      rw [chars, itemChars_eq]
      exact fails_array (fun v _ => hsettles v) (hdeep.imp fun _ hv => ⟨hv.1, ih hv.2⟩)
    | object members =>
      have hdeep : ∃ m ∈ members, d < m.2.depth := by
        simpa using mt depth_object_le.mpr (Nat.not_le.mpr h)
      obtain ⟨m, hm, hlt⟩ := hdeep
      rw [chars, memberChars_eq]
      refine fails_object (fun text htext => ?_)
        ⟨(m.1, m.2.chars), List.mem_map_of_mem hm, ih hlt⟩
      obtain ⟨m', -, rfl⟩ := List.mem_map.mp htext
      exact hsettles m'.2
    | _ => exact absurd h (Nat.not_lt_zero _)

end Json

end PlatformProxy
