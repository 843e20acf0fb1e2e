import Mathlib.Data.List.Basic
import PlatformProxy.Json.Shaped

/-!
# Records in JSON

A record is read off the members of an object in one pass, whatever their order. What it comes to
can be said field by field. A field is filled by the member of its name. There is at most one, or
reading fails, and the members of other names have no part in it.

## Main definitions

* `Json.Fills` — what the members of a name make of a field
* `Json.fillSlot` — how a member fills the slot of its field

## Main results

* `Json.ofMemberList_split` — each member has to do with one field at most
* `Json.ofMemberList_eq_ok_iff` — the first field of a record, and the others without its members
-/

namespace PlatformProxy

namespace Json

/-- What the members of a name make of the field of that name. -/
inductive Fills (shape : Shape) : List (String × Json) → Option shape.Value → Prop
  | absent : Fills shape [] none
  | present {m : String × Json} {x : shape.Value} (h : shape.ofJson m.2 = .ok x) :
      Fills shape [m] (some x)

theorem fills_nil_iff {shape : Shape} {slot : Option shape.Value} :
    Fills shape [] slot ↔ slot = none := by
  constructor
  · rintro ⟨⟩
    rfl
  · rintro rfl
    exact .absent

theorem fills_cons_iff {shape : Shape} {slot : Option shape.Value} {m : String × Json}
    {members : List (String × Json)} :
    Fills shape (m :: members) slot ↔
      members = [] ∧ ∃ x, shape.ofJson m.2 = .ok x ∧ slot = some x := by
  constructor
  · rintro ⟨⟩
    exact ⟨rfl, _, ‹_›, rfl⟩
  · rintro ⟨rfl, x, hx, rfl⟩
    exact .present hx

section Member

variable {name : String} {required : Bool} {shape : Shape} {rest : Fields}

theorem ofMember_of_ne {slot : Option shape.Value} {slots : rest.Slots} {key : String} (v : Json)
    (h : key ≠ name) :
    (Fields.cons name required shape rest).ofMember (slot, slots) key v =
      (rest.ofMember slots key v).map (slot, ·) := by
  rw [Fields.ofMember, if_neg h]

/-- Fill the slot of a field, which can be done once. -/
def fillSlot (name : String) (shape : Shape) (slot : Option shape.Value) (_ : String) (v : Json) :
    Except Mismatch (Option shape.Value) :=
  if slot.isSome then .error (.duplicateField name) else (shape.ofJson v).map some

theorem ofMember_self (slot : Option shape.Value) (slots : rest.Slots) (v : Json) :
    (Fields.cons name required shape rest).ofMember (slot, slots) name v =
      (fillSlot name shape slot name v).map (·, slots) := by
  rw [Fields.ofMember, if_pos rfl, fillSlot]
  split
  · rfl
  · cases shape.ofJson v <;> rfl

theorem ofMemberList_cons {σ : Type} (member : σ → String → Json → Except Mismatch σ) (acc : σ)
    (name : String) (v : Json) (members : List (String × Json)) :
    ofMemberList member acc ((name, v) :: members) =
      (member acc name v).bind fun acc => ofMemberList member acc members := rfl

/-- The members of the name of a field fill its slot, and the others the slots of other fields. -/
theorem ofMemberList_split {slot slot' : Option shape.Value} {slots slots' : rest.Slots}
    {members : List (String × Json)} :
    ofMemberList (Fields.cons name required shape rest).ofMember (slot, slots) members =
        .ok (slot', slots') ↔
      ofMemberList (fillSlot name shape) slot (members.filter fun m => m.1 = name) = .ok slot' ∧
        ofMemberList rest.ofMember slots (members.filter fun m => m.1 ≠ name) = .ok slots' := by
  induction members generalizing slot slots with
  | nil =>
    rw [List.filter_nil, List.filter_nil, ofMemberList, ofMemberList, ofMemberList,
      Except.ok.injEq, Except.ok.injEq, Except.ok.injEq, Prod.mk.injEq]
  | cons m members ih =>
    obtain ⟨key, v⟩ := m
    rw [ofMemberList_cons]
    by_cases hkey : key = name
    · subst hkey
      rw [ofMember_self, List.filter_cons_of_pos (by simp), List.filter_cons_of_neg (by simp),
        ofMemberList_cons]
      cases fillSlot key shape slot key v with
      | error m => exact ⟨nofun, nofun⟩
      | ok slot₁ => exact ih
    · rw [ofMember_of_ne v hkey, List.filter_cons_of_neg (by simpa using hkey),
        List.filter_cons_of_pos (by simpa using hkey), ofMemberList_cons]
      cases rest.ofMember slots key v with
      | error m => exact ⟨nofun, nofun⟩
      | ok slots₁ => exact ih

theorem ofMemberList_fillSlot_some {x : shape.Value} {slot : Option shape.Value}
    {members : List (String × Json)} :
    ofMemberList (fillSlot name shape) (some x) members = .ok slot ↔
      members = [] ∧ slot = some x := by
  cases members with
  | nil =>
    rw [ofMemberList, Except.ok.injEq]
    exact ⟨fun h => ⟨rfl, h.symm⟩, fun h => h.2.symm⟩
  | cons m members => exact ⟨nofun, nofun⟩

theorem ofMemberList_fillSlot_none {slot : Option shape.Value} {members : List (String × Json)} :
    ofMemberList (fillSlot name shape) none members = .ok slot ↔ Fills shape members slot := by
  cases members with
  | nil =>
    rw [ofMemberList, fills_nil_iff, Except.ok.injEq]
    exact eq_comm
  | cons m members =>
    obtain ⟨key, v⟩ := m
    have hfirst : fillSlot name shape none key v = (shape.ofJson v).map some := rfl
    rw [ofMemberList_cons, fills_cons_iff, hfirst]
    cases hv : shape.ofJson v with
    | error m => exact ⟨nofun, nofun⟩
    | ok x =>
      refine ofMemberList_fillSlot_some.trans ?_
      simp only [Except.ok.injEq, exists_eq_left']

/-- **The first field of a record** depends on the members of its name, and the other fields on the
other members. -/
theorem ofMemberList_eq_ok_iff {slot : Option shape.Value} {slots slots' : rest.Slots}
    {members : List (String × Json)} :
    ofMemberList (Fields.cons name required shape rest).ofMember (none, slots) members =
        .ok (slot, slots') ↔
      Fills shape (members.filter fun m => m.1 = name) slot ∧
        ofMemberList rest.ofMember slots (members.filter fun m => m.1 ≠ name) = .ok slots' := by
  rw [ofMemberList_split, ofMemberList_fillSlot_none]

end Member

theorem ofJson_record_eq_ok_iff {title : String} {fields : Fields} {members : List (String × Json)}
    {values : fields.Values} :
    (Shape.record title fields).ofJson (.object members) = .ok values ↔
      ∃ slots, ofMemberList fields.ofMember fields.empty members = .ok slots ∧
        fields.complete slots = .ok values := by
  rw [Shape.ofJson]
  cases ofMemberList fields.ofMember fields.empty members with
  | error m => exact ⟨nofun, fun ⟨_, h, _⟩ => absurd h nofun⟩
  | ok slots => exact ⟨fun h => ⟨slots, rfl, h⟩, fun ⟨_, h, h'⟩ => Except.ok.inj h ▸ h'⟩

end Json

end PlatformProxy
