import Mathlib.Algebra.Ring.Int.Defs
import Mathlib.Data.List.Forall2
import PlatformProxy.Json.Shaped

/-!
# Scalars and lists in JSON

Texts, integers and lists of them have one JSON value each, which is not null, and it is the only
one that stands for them. What a reader makes of a JSON value can therefore be said without the
reader. For integers this rests on numbers, which hold an integer of 64 bits in one way only: a
number with a fraction is no integer, even if the fraction is zero.

## Main definitions

* `Json.Faithful` — types with one JSON value for each value
* `Json.IntegerKind.toInt` — the integer that a value of an integer type is

## Main results

* `Json.IntegerKind.ofNumber_eq_ok_iff` — the numbers that are read as integers
* `Json.faithful_string`, `Json.faithful_int32`, `Json.faithful_nat32`, `Json.faithful_nat64`,
  `Json.faithful_list` — the types of parameters
-/

namespace PlatformProxy

namespace Json

/-- A JSON value stands for a value of the type only if it is the one that is written for it, and
null stands for none. -/
structure Faithful (α : Type) [Shaped α] : Prop where
  read : ∀ (v : Json) (x : α), fromJson? v = .ok x ↔ v = toJson x
  ne_null : ∀ x : α, toJson x ≠ null

/-! ### Numbers -/

namespace Number

/-- An integer is kept in one way. -/
theorem eq_of_toInt? {n n' : Number} {i : Int} (h : n.toInt? = some i) (h' : n'.toInt? = some i) :
    n = n' := by
  have hsome : ∀ {j : Int}, some j = some i → j = i := Option.some.inj
  cases n with
  | real x hx => simp [toInt?] at h
  | natural a =>
    have ha := hsome h
    cases n' with
    | real x hx => simp [toInt?] at h'
    | natural b =>
      have hb := hsome h'
      exact congrArg natural (UInt64.toNat_inj.mp (by omega))
    | negative b =>
      have hb := hsome h'
      omega
  | negative a =>
    have ha := hsome h
    cases n' with
    | real x hx => simp [toInt?] at h'
    | natural b =>
      have hb := hsome h'
      omega
    | negative b =>
      have hb := hsome h'
      exact congrArg negative (Fin.ext (by omega))

/-- An integer of 64 bits is kept as itself. -/
theorem toInt?_ofInt? {i : Int} (hlow : -2 ^ 63 ≤ i) (hhigh : i < 2 ^ 64) :
    ∃ n, ofInt? i = some n ∧ n.toInt? = some i := by
  rw [ofInt?]
  by_cases hsign : 0 ≤ i
  · have hsize : i < UInt64.size := hhigh
    have hmod : (UInt64.ofNat i.toNat).toNat = i.toNat :=
      UInt64.toNat_ofNat_of_lt' (by omega)
    rw [if_pos hsign, if_pos hsize]
    exact ⟨_, rfl, by rw [toInt?, hmod, Int.toNat_of_nonneg hsign]⟩
  · have hsize : (-i - 1).toNat < Nat.pow 2 63 := by
      show (-i - 1).toNat < 2 ^ 63
      omega
    rw [if_neg hsign, dif_pos hsize]
    refine ⟨_, rfl, congrArg some ?_⟩
    show -(((-i - 1).toNat : Int) + 1) = i
    omega

end Number

/-! ### Integer types -/

namespace IntegerKind

/-- The integer that a value is. -/
def toInt : (k : IntegerKind) → k.Value → Int
  | int32, v => v.toInt
  | int64, v => v.toInt
  | nat32, v => v.toNat
  | nat64, v => v.toNat
  | size, v => v.toNat

variable {k : IntegerKind}

theorem toInt?_toNumber (v : k.Value) : (k.toNumber v).toInt? = some (k.toInt v) := by
  have hsigned : ∀ {i : Int}, -2 ^ 63 ≤ i → i < 2 ^ 63 →
      ((Number.ofInt? i).getD (.natural 0)).toInt? = some i := by
    intro i hlow hhigh
    obtain ⟨n, hn, hi⟩ := Number.toInt?_ofInt? hlow (by omega)
    rw [hn]
    exact hi
  cases k with
  | int32 =>
    have hlow := Int32.le_toInt v
    have hhigh := Int32.toInt_lt v
    exact hsigned (by omega) (by omega)
  | int64 => exact hsigned (Int64.le_toInt v) (Int64.toInt_lt v)
  | nat32 => rfl
  | nat64 => rfl
  | size => rfl

theorem toInt_mem_range (v : k.Value) : k.least ≤ k.toInt v ∧ k.toInt v < k.bound := by
  cases k with
  | int32 => exact ⟨Int32.le_toInt v, Int32.toInt_lt v⟩
  | int64 => exact ⟨Int64.le_toInt v, Int64.toInt_lt v⟩
  | nat32 => exact ⟨Int.natCast_nonneg _, Int.ofNat_lt.mpr (UInt32.toNat_lt_size v)⟩
  | nat64 => exact ⟨Int.natCast_nonneg _, Int.ofNat_lt.mpr (UInt64.toNat_lt_size v)⟩
  | size => exact ⟨Int.natCast_nonneg _, Int.ofNat_lt.mpr (UInt64.toNat_lt_size v)⟩

theorem toInt_inj {v w : k.Value} (h : k.toInt v = k.toInt w) : v = w := by
  cases k with
  | int32 => exact Int32.toInt_inj.mp h
  | int64 => exact Int64.toInt_inj.mp h
  | nat32 => exact UInt32.toNat_inj.mp (Int.ofNat.inj h)
  | nat64 => exact UInt64.toNat_inj.mp (Int.ofNat.inj h)
  | size => exact UInt64.toNat_inj.mp (Int.ofNat.inj h)

theorem toInt_wrap {i : Int} (hlow : k.least ≤ i) (hhigh : i < k.bound) :
    k.toInt (k.wrap i) = i := by
  have h64 : 0 ≤ i → i < (UInt64.size : Int) → ((UInt64.ofInt i).toNat : Int) = i := by
    intro hlow hhigh
    have hlt : i < 2 ^ 64 := hhigh
    rw [UInt64.ofInt, Int.emod_eq_of_lt hlow hlt, UInt64.toNat_ofNat_of_lt' (by omega),
      Int.toNat_of_nonneg hlow]
  cases k with
  | int32 => exact Int32.toInt_ofInt_of_le hlow hhigh
  | int64 => exact Int64.toInt_ofInt_of_le hlow hhigh
  | nat32 =>
    have hlow : 0 ≤ i := hlow
    have hhigh : i < (UInt32.size : Int) := hhigh
    have hlt : i < 2 ^ 32 := hhigh
    show ((UInt32.ofInt i).toNat : Int) = i
    rw [UInt32.ofInt, Int.emod_eq_of_lt hlow hlt, UInt32.toNat_ofNat_of_lt' (by omega),
      Int.toNat_of_nonneg hlow]
  | nat64 => exact h64 hlow hhigh
  | size => exact h64 hlow hhigh

theorem ofInt?_eq_some_iff {i : Int} {v : k.Value} : k.ofInt? i = some v ↔ i = k.toInt v := by
  rw [ofInt?]
  constructor
  · intro h
    split at h
    · rename_i hrange
      obtain rfl := Option.some.inj h
      exact (toInt_wrap hrange.1 hrange.2).symm
    · simp at h
  · rintro rfl
    have hrange := toInt_mem_range v
    rw [if_pos hrange, toInt_inj (toInt_wrap hrange.1 hrange.2)]

/-- **The numbers that are read as integers** are those that integers are written as. -/
theorem ofNumber_eq_ok_iff {n : Number} {v : k.Value} :
    k.ofNumber n = .ok v ↔ n = k.toNumber v := by
  rw [ofNumber]
  constructor
  · intro h
    split at h
    · simp at h
    · rename_i i hi
      split at h
      · simp at h
      · rename_i w hw
        obtain rfl := Except.ok.inj h
        rw [ofInt?_eq_some_iff.mp hw] at hi
        exact Number.eq_of_toInt? hi (toInt?_toNumber w)
  · rintro rfl
    rw [toInt?_toNumber]
    dsimp only
    rw [ofInt?_eq_some_iff.mpr rfl]

end IntegerKind

/-! ### Types -/

theorem faithful_string : Faithful String := by
  refine ⟨fun v s => ?_, fun _ => nofun⟩
  constructor
  · intro h
    cases v with
    | string t => exact congrArg string (Except.ok.inj h)
    | _ => exact absurd h nofun
  · rintro rfl
    rfl

theorem faithful_integer (k : IntegerKind) : @Faithful k.Value ⟨.integer k, id, id⟩ := by
  let _ : Shaped k.Value := ⟨.integer k, id, id⟩
  refine ⟨fun v x => ?_, fun _ => nofun⟩
  show ((Shape.integer k).ofJson v).map id = .ok x ↔ v = .number (k.toNumber x)
  rw [Except.map_id, id]
  cases v with
  | number n => exact IntegerKind.ofNumber_eq_ok_iff.trans ⟨congrArg number, number.inj⟩
  | _ => exact ⟨nofun, nofun⟩

theorem faithful_int32 : Faithful Int32 := faithful_integer .int32

theorem faithful_nat32 : Faithful UInt32 := faithful_integer .nat32

theorem faithful_nat64 : Faithful UInt64 := faithful_integer .nat64

theorem exists_of_map_eq_ok {ε β γ : Type} {f : β → γ} {r : Except ε β} {z : γ}
    (h : r.map f = .ok z) : ∃ y, r = .ok y ∧ f y = z := by
  cases r with
  | error m => exact absurd h nofun
  | ok y => exact ⟨y, rfl, Except.ok.inj h⟩

theorem exists_of_bind_eq_ok {ε β γ : Type} {f : β → Except ε γ} {r : Except ε β} {z : γ}
    (h : r.bind f = .ok z) : ∃ y, r = .ok y ∧ f y = .ok z := by
  cases r with
  | error m => exact absurd h nofun
  | ok y => exact ⟨y, rfl, h⟩

section List

variable {α : Type} [Shaped α]

theorem fromJson?_array_cons (v : Json) (items : List Json) :
    (fromJson? (.array (v :: items)) : Except Mismatch (List α)) =
      (fromJson? v).bind fun x => (fromJson? (.array items)).map (x :: ·) := by
  show (ofItems (Shaped.shape α).ofJson (v :: items)).map _ =
    ((Shaped.shape α).ofJson v |>.map Shaped.ofValue).bind fun x =>
      ((ofItems (Shaped.shape α).ofJson items).map (List.map Shaped.ofValue)).map (x :: ·)
  rw [ofItems]
  cases (Shaped.shape α).ofJson v with
  | error m => rfl
  | ok x => cases ofItems (Shaped.shape α).ofJson items <;> rfl

/-- A list is read item by item, and each of them must be read. -/
theorem fromJson?_array_eq_ok_iff {items : List Json} {xs : List α} :
    fromJson? (.array items) = .ok xs ↔ List.Forall₂ (fun v x => fromJson? v = .ok x) items xs := by
  induction items generalizing xs with
  | nil =>
    rw [List.forall₂_nil_left_iff]
    exact ⟨fun h => (Except.ok.inj h).symm, fun h => h ▸ rfl⟩
  | cons v items ih =>
    rw [List.forall₂_cons_left_iff, fromJson?_array_cons]
    constructor
    · intro h
      obtain ⟨x, hx, hrest⟩ := exists_of_bind_eq_ok h
      obtain ⟨ys, hys, rfl⟩ := exists_of_map_eq_ok hrest
      exact ⟨x, ys, hx, ih.mp hys, rfl⟩
    · rintro ⟨x, ys, hx, hys, rfl⟩
      rw [hx, Except.bind, ih.mpr hys]
      rfl

theorem toJson_list (xs : List α) : toJson xs = .array (xs.map toJson) :=
  congrArg array List.map_map

theorem faithful_list (h : Faithful α) : Faithful (List α) := by
  refine ⟨fun v xs => ?_, fun _ => nofun⟩
  cases v with
  | array items =>
    rw [toJson_list, array.injEq, fromJson?_array_eq_ok_iff, ← List.forall₂_eq_eq_eq,
      List.forall₂_map_right_iff]
    simp only [h.read]
  | _ => exact ⟨nofun, nofun⟩

end List

end Json

end PlatformProxy
