import Mathlib.Data.List.Nodup
import Mathlib.Data.List.Perm.Basic

/-!
# Tables with keys

Queries that wait, open downloads and open pages are kept in lists of pairs. A key is looked up
with `List.find?` and taken out with `List.filter`, which is right as long as no key is there
twice. Commands and messages are numbered by their places in a list that only grows.

## Main definitions

* `Keyed.Holds` — a table has certain keys, each once
* `Keyed.Grows`, `Keyed.without` — a table after a key has come in or gone out

## Main results

* `Keyed.find?_eq_some` — what is in the table is found
* `Keyed.perm_cons_filter` — taking a key out takes out one pair
* `Keyed.find?_filter_of_ne` — and leaves the other keys alone
* `Keyed.Holds.grow`, `Keyed.Holds.without` — what a table holds after that
* `Keyed.lookup_isSome_iff`, `Keyed.lookup_map_pair`, `Keyed.lookup_map_put` — the same for a table
  that is looked up with `List.lookup`
* `Keyed.getElem?_append_of_eq_some`, `Keyed.getElem?_concat_eq_some` — what stands at a place of a
  list that has grown
-/

namespace PlatformProxy

namespace Keyed

variable {κ α : Type} {l : List (κ × α)} {k : κ} {v : α}

theorem eq_of_mem (hl : (l.map Prod.fst).Nodup) (hv : (k, v) ∈ l) {p : κ × α} (hp : p ∈ l)
    (hk : p.1 = k) : p = (k, v) :=
  List.inj_on_of_nodup_map hl hp hv hk

theorem nodup_filter (hl : (l.map Prod.fst).Nodup) (q : κ × α → Bool) :
    ((l.filter q).map Prod.fst).Nodup :=
  hl.sublist (List.filter_sublist.map Prod.fst)

/-! ### Keys that are drawn from a counter -/

/-- The table has these keys, each once, and none of them has still to be drawn. -/
structure Holds (number : κ → Nat) (last : Nat) (l : List (κ × α)) (keys : List κ) : Prop where
  perm : (l.map Prod.fst).Perm keys
  nodup : (l.map Prod.fst).Nodup
  drawn : ∀ j ∈ keys, number j ≤ last

namespace Holds

variable {number : κ → Nat} {last last' : Nat} {l' : List (κ × α)} {keys keys' : List κ}

theorem nodup_keys (h : Holds number last l keys) : keys.Nodup := h.perm.nodup_iff.mp h.nodup

theorem mono (h : Holds number last l keys) (hlast : last ≤ last') : Holds number last' l keys :=
  ⟨h.perm, h.nodup, fun j hj => Nat.le_trans (h.drawn j hj) hlast⟩

theorem perm_keys (h : Holds number last l keys) (hkeys : keys.Perm keys') :
    Holds number last l keys' :=
  ⟨h.perm.trans hkeys, h.nodup, fun j hj => h.drawn j (hkeys.mem_iff.mpr hj)⟩

theorem perm_table (h : Holds number last l keys) (hl : l'.Perm l) : Holds number last l' keys :=
  ⟨(hl.map Prod.fst).trans h.perm, (hl.map Prod.fst).nodup_iff.mpr h.nodup, h.drawn⟩

theorem eq_nil (h : Holds number last l []) : l = [] := by
  have hkeys := h.perm.eq_nil
  rwa [List.map_eq_nil_iff] at hkeys

/-- A key that is drawn now is not in the table. -/
theorem cons (h : Holds number last l keys) (hfresh : last < number k) (hlast : number k ≤ last') :
    Holds number last' ((k, v) :: l) (k :: keys) where
  perm := h.perm.cons k
  nodup := by
    refine List.nodup_cons.mpr ⟨fun hk => ?_, h.nodup⟩
    exact absurd (h.drawn k (h.perm.mem_iff.mp hk)) (Nat.not_le.mpr hfresh)
  drawn := by
    intro j hj
    rcases List.mem_cons.mp hj with rfl | hj
    · exact hlast
    · exact Nat.le_trans (h.drawn j hj) (Nat.le_trans (Nat.le_of_lt hfresh) hlast)

end Holds

/-- A table after one more key may have come in. -/
inductive Grows (number : κ → Nat) (last last' : Nat) (l : List (κ × α)) :
    Option κ → List (κ × α) → Prop
  | same : Grows number last last' l none l
  | cons {k : κ} (v : α) (hfresh : last < number k) (hlast : number k ≤ last') :
    Grows number last last' l (some k) ((k, v) :: l)

theorem Holds.grow {number : κ → Nat} {last last' : Nat} {l' : List (κ × α)} {keys : List κ}
    {key? : Option κ} (h : Holds number last l keys) (hlast : last ≤ last')
    (hgrows : Grows number last last' l key? l') :
    Holds number last' l' (key?.toList ++ keys) := by
  cases hgrows with
  | same => exact h.mono hlast
  | cons v hfresh hlast' => exact h.cons hfresh hlast'

/-! ### Looking up and taking out -/

variable [DecidableEq κ]

theorem find?_eq_some (hl : (l.map Prod.fst).Nodup) (hv : (k, v) ∈ l) :
    (l.find? fun p => p.1 = k) = some (k, v) := by
  cases h : l.find? fun p => p.1 = k with
  | none =>
    rw [List.find?_eq_none] at h
    simpa using h (k, v) hv
  | some p =>
    have hk : p.1 = k := by simpa using List.find?_some h
    rw [eq_of_mem hl hv (List.mem_of_find?_eq_some h) hk]

theorem filter_eq_singleton (hl : (l.map Prod.fst).Nodup) (hv : (k, v) ∈ l) :
    (l.filter fun p => p.1 = k) = [(k, v)] := by
  have hmem : (k, v) ∈ l.filter fun p => p.1 = k := by simp [hv]
  have hall : ∀ p ∈ l.filter (fun p => p.1 = k), p = (k, v) := by
    intro p hp
    rw [List.mem_filter] at hp
    exact eq_of_mem hl hv hp.1 (by simpa using hp.2)
  have hnodup : (l.filter fun p => p.1 = k).Nodup := (List.Nodup.of_map _ hl).filter _
  rw [List.eq_replicate_of_mem hall] at hmem hnodup ⊢
  have hone := List.nodup_replicate.mp hnodup
  have hpos := List.mem_replicate.mp hmem
  rw [show (l.filter fun p => p.1 = k).length = 1 by omega]
  rfl

/-- **Taking a key out takes out one pair.** -/
theorem perm_cons_filter (hl : (l.map Prod.fst).Nodup) (hv : (k, v) ∈ l) :
    l.Perm ((k, v) :: l.filter fun p => p.1 ≠ k) := by
  have h := List.filter_append_perm (fun p => decide (p.1 = k)) l
  rw [filter_eq_singleton hl hv] at h
  simpa using h.symm

theorem find?_cons_self : (((k, v) :: l).find? fun p => p.1 = k) = some (k, v) :=
  List.find?_cons_of_pos (decide_eq_true rfl)

theorem find?_cons_of_ne {j : κ} (h : j ≠ k) :
    (((k, v) :: l).find? fun p => p.1 = j) = l.find? fun p => p.1 = j :=
  List.find?_cons_of_neg (by simpa using h.symm)

theorem find?_filter_self : ((l.filter fun p => p.1 ≠ k).find? fun p => p.1 = k) = none := by
  rw [List.find?_filter, List.find?_eq_none]
  simp

theorem find?_filter_of_ne {j : κ} (h : j ≠ k) :
    ((l.filter fun p => p.1 ≠ k).find? fun p => p.1 = j) = l.find? fun p => p.1 = j := by
  rw [List.find?_filter]
  congr 1
  funext p
  by_cases hp : p.1 = j
  · simp [hp, h]
  · simp [hp]

namespace Holds

variable {number : κ → Nat} {last : Nat} {keys : List κ}

theorem erase (h : Holds number last l (k :: keys)) :
    Holds number last (l.filter fun p => p.1 ≠ k) keys := by
  have hmem : k ∈ l.map Prod.fst := h.perm.mem_iff.mpr List.mem_cons_self
  obtain ⟨⟨j, v⟩, hv, rfl⟩ := List.mem_map.mp hmem
  have hsplit := (perm_cons_filter h.nodup hv).map Prod.fst
  exact ⟨(hsplit.symm.trans h.perm).cons_inv, nodup_filter h.nodup _,
    fun i hi => h.drawn i (List.mem_cons_of_mem _ hi)⟩

/-- A key that comes in now is none of those that are there. -/
theorem find?_of_grows {last' : Nat} {l' : List (κ × α)} {key? : Option κ}
    (h : Holds number last l keys) (hgrows : Grows number last last' l key? l') {j : κ}
    (hj : j ∈ keys) : (l'.find? fun p => p.1 = j) = l.find? fun p => p.1 = j := by
  cases hgrows with
  | same => rfl
  | @cons k v hfresh _ =>
    have hne : k ≠ j := fun hk => absurd (h.drawn j hj) (by rw [← hk]; exact Nat.not_le.mpr hfresh)
    rw [List.find?_cons_of_neg]
    simpa using hne

end Holds

/-- A table after a key may have been taken out. -/
def without (key? : Option κ) (l : List (κ × α)) : List (κ × α) :=
  match key? with
  | none => l
  | some k => l.filter fun p => p.1 ≠ k

theorem Holds.without {number : κ → Nat} {last : Nat} {keys : List κ} {key? : Option κ}
    (h : Holds number last l (key?.toList ++ keys)) :
    Holds number last (Keyed.without key? l) keys := by
  cases key? with
  | none => exact h
  | some k => exact Holds.erase h

theorem find?_without {key? : Option κ} {j : κ} (h : key? ≠ some j) (l : List (κ × α)) :
    ((without key? l).find? fun p => p.1 = j) = l.find? fun p => p.1 = j := by
  cases key? with
  | none => rfl
  | some k => exact find?_filter_of_ne fun hj => h (congrArg some hj.symm)

/-! ### Looking up by equality of keys -/

theorem lookup_isSome_iff {l : List (κ × α)} {k : κ} :
    (l.lookup k).isSome ↔ k ∈ l.map Prod.fst := by
  rw [Option.isSome_iff_ne_none, Ne, List.lookup_eq_none_iff, List.mem_map]
  simp only [bne_iff_ne, not_forall, not_not, exists_prop]
  exact exists_congr fun p => and_congr_right fun _ => eq_comm

theorem lookup_map_pair (f : κ → α) (keys : List κ) (k : κ) :
    (keys.map fun j => (j, f j)).lookup k = if k ∈ keys then some (f k) else none := by
  induction keys with
  | nil => rfl
  | cons j keys ih =>
    rw [List.map_cons, List.lookup_cons, ih]
    by_cases hk : k = j
    · simp [hk]
    · simp [hk, beq_false_of_ne hk]

theorem lookup_map_put (l : List (κ × α)) (k : κ) (v : α) (j : κ) :
    (l.map fun p => if p.1 = k then (k, v) else p).lookup j =
      if j = k then (l.lookup k).map fun _ => v else l.lookup j := by
  induction l with
  | nil => simp
  | cons p l ih =>
    obtain ⟨i, a⟩ := p
    rw [List.map_cons, List.lookup_cons, ih, List.lookup_cons, List.lookup_cons]
    by_cases hi : i = k
    · by_cases hj : j = k
      · simp [hi, hj]
      · simp [hi, hj, beq_false_of_ne hj]
    · by_cases hj : j = k
      · simp [hi, hj, beq_false_of_ne (Ne.symm hi)]
      · simp [hi, hj]

/-! ### Places in a list that grows -/

theorem getElem?_append_of_eq_some {vs : List α} {i : Nat} (h : vs[i]? = some v)
    (more : List α) : (vs ++ more)[i]? = some v := by
  rwa [List.getElem?_append_left (List.getElem?_eq_some_iff.mp h).1]

theorem getElem?_concat_eq_some {vs : List α} {last : α} {i : Nat}
    (h : (vs ++ [last])[i]? = some v) : vs[i]? = some v ∨ i = vs.length ∧ v = last := by
  rcases Nat.lt_or_ge i vs.length with hlt | hge
  · rw [List.getElem?_append_left hlt] at h
    exact .inl h
  · have hle : i < vs.length + 1 := by
      simpa using (List.getElem?_eq_some_iff.mp h).1
    obtain rfl : i = vs.length := Nat.le_antisymm (Nat.le_of_lt_succ hle) hge
    rw [List.getElem?_concat_length] at h
    exact .inr ⟨rfl, (Option.some.inj h).symm⟩

end Keyed

end PlatformProxy
