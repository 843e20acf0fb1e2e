import PlatformProxy.Floating.Basic

/-!
# JSON values

A JSON value as the proxy keeps it. Numbers are split the way they are read: integers of 64 bits
are kept exactly, every other number is a double. The members of an object are kept in the order
of their names and no name occurs twice, so that two objects with the same members are equal and
are written alike.

## Main definitions

* `Json.Number` — exact integers and finite doubles
* `Json` — values
* `Json.insertMember`, `Json.ofMembers` — objects from members in any order; the last member of a
  name wins
* `Json.lookup` — the member of a name

## Implementation notes

Names are compared character by character. In UTF-8 this is also the order of their bytes.
-/

namespace PlatformProxy

namespace Json

/-- A number. The number `negative n` is `-(n + 1)`, so that each integer is written in one way
only. -/
inductive Number
  | natural (n : UInt64)
  | negative (n : Fin (Nat.pow 2 63))
  | real (x : Floating .double) (finite : x.isFinite = true)
  deriving DecidableEq, Repr

namespace Number

/-- The integer a number is kept as. -/
def toInt? : Number → Option Int
  | natural n => some n.toNat
  | negative n => some (-(n.val + 1 : Int))
  | real _ _ => none

/-- The number of an integer that fits. -/
def ofInt? (i : Int) : Option Number :=
  if 0 ≤ i then
    if i < UInt64.size then some (natural (UInt64.ofNat i.toNat)) else none
  else if h : (-i - 1).toNat < Nat.pow 2 63 then some (negative ⟨(-i - 1).toNat, h⟩)
  else none

def ofInt32 (i : Int32) : Number := (ofInt? i.toInt).getD (natural 0)

def ofInt64 (i : Int64) : Number := (ofInt? i.toInt).getD (natural 0)

end Number

end Json

/-- A JSON value. -/
inductive Json
  | null
  | bool (b : Bool)
  | number (n : Json.Number)
  | string (s : String)
  | array (items : List Json)
  | object (members : List (String × Json))
  deriving Repr, Inhabited

namespace Json

/-! ### Equality -/

mutual

/-- Decide whether two values are equal. -/
def decideEq : (a b : Json) → Decidable (a = b)
  | null, null => isTrue rfl
  | bool a, bool b => if h : a = b then isTrue (h ▸ rfl) else isFalse fun e => h (bool.inj e)
  | number a, number b => if h : a = b then isTrue (h ▸ rfl) else isFalse fun e => h (number.inj e)
  | string a, string b => if h : a = b then isTrue (h ▸ rfl) else isFalse fun e => h (string.inj e)
  | array a, array b =>
    match decideEqItems a b with
    | isTrue h => isTrue (h ▸ rfl)
    | isFalse h => isFalse fun e => h (array.inj e)
  | object a, object b =>
    match decideEqMembers a b with
    | isTrue h => isTrue (h ▸ rfl)
    | isFalse h => isFalse fun e => h (object.inj e)
  | null, bool _ | null, number _ | null, string _ | null, array _ | null, object _
  | bool _, null | bool _, number _ | bool _, string _ | bool _, array _ | bool _, object _
  | number _, null | number _, bool _ | number _, string _ | number _, array _
  | number _, object _ | string _, null | string _, bool _ | string _, number _
  | string _, array _ | string _, object _ | array _, null | array _, bool _
  | array _, number _ | array _, string _ | array _, object _ | object _, null
  | object _, bool _ | object _, number _ | object _, string _ | object _, array _ =>
    isFalse nofun

/-- The same for the items of arrays. -/
def decideEqItems : (a b : List Json) → Decidable (a = b)
  | [], [] => isTrue rfl
  | [], _ :: _ => isFalse nofun
  | _ :: _, [] => isFalse nofun
  | x :: a, y :: b =>
    match decideEq x y with
    | isTrue h =>
      match decideEqItems a b with
      | isTrue h' => isTrue (h ▸ h' ▸ rfl)
      | isFalse h' => isFalse fun e => h' (List.cons.inj e).2
    | isFalse h => isFalse fun e => h (List.cons.inj e).1

/-- The same for the members of objects. -/
def decideEqMembers : (a b : List (String × Json)) → Decidable (a = b)
  | [], [] => isTrue rfl
  | [], _ :: _ => isFalse nofun
  | _ :: _, [] => isFalse nofun
  | (k, x) :: a, (l, y) :: b =>
    if hk : k = l then
      match decideEq x y with
      | isTrue h =>
        match decideEqMembers a b with
        | isTrue h' => isTrue (hk ▸ h ▸ h' ▸ rfl)
        | isFalse h' => isFalse fun e => h' (List.cons.inj e).2
      | isFalse h => isFalse fun e => h (Prod.mk.inj (List.cons.inj e).1).2
    else isFalse fun e => hk (Prod.mk.inj (List.cons.inj e).1).1

end

instance : DecidableEq Json := decideEq

/-! ### Values -/

def natural (n : UInt64) : Json := number (.natural n)

def int32 (i : Int32) : Json := number (.ofInt32 i)

def int64 (i : Int64) : Json := number (.ofInt64 i)

def uint32 (n : UInt32) : Json := natural n.toUInt64

/-- The value of a double; what is not finite has no number in JSON and is null. -/
def real (x : Floating .double) : Json :=
  if h : x.isFinite = true then number (.real x h) else null

/-! ### Objects -/

/-- Put a member where its name belongs, in place of a member of that name. -/
def insertMember (name : String) (value : Json) :
    List (String × Json) → List (String × Json)
  | [] => [(name, value)]
  | (n, v) :: rest =>
    if name < n then (name, value) :: (n, v) :: rest
    else if name = n then (name, value) :: rest
    else (n, v) :: insertMember name value rest

/-- An object from members in any order. -/
def ofMembers (members : List (String × Json)) : Json :=
  object (members.foldl (fun acc m => insertMember m.1 m.2 acc) [])

/-- The member of a name. -/
def lookup (name : String) (members : List (String × Json)) : Option Json :=
  (members.find? fun m => m.1 = name).map Prod.snd

/-! ### Members in order -/

/-- The names increase from member to member. -/
def Ordered (members : List (String × Json)) : Prop := members.Pairwise fun a b => a.1 < b.1

theorem mem_insertMember {name : String} {value : Json} {members : List (String × Json)}
    {m : String × Json} (h : m ∈ insertMember name value members) :
    m = (name, value) ∨ m ∈ members := by
  induction members with
  | nil => simpa [insertMember] using h
  | cons head rest ih =>
    obtain ⟨n, v⟩ := head
    simp only [insertMember] at h
    split at h
    · simpa using h
    · split at h
      · rcases List.mem_cons.mp h with h | h
        · exact .inl h
        · exact .inr (List.mem_cons_of_mem _ h)
      · rcases List.mem_cons.mp h with h | h
        · exact .inr (h ▸ List.mem_cons_self)
        · exact (ih h).imp_right (List.mem_cons_of_mem _)

theorem ordered_insertMember {name : String} {value : Json} {members : List (String × Json)}
    (h : Ordered members) : Ordered (insertMember name value members) := by
  induction members with
  | nil => simp [insertMember, Ordered]
  | cons head rest ih =>
    obtain ⟨n, v⟩ := head
    have hr : Ordered rest := (List.pairwise_cons.mp h).2
    have hn : ∀ m ∈ rest, n < m.1 := (List.pairwise_cons.mp h).1
    simp only [insertMember]
    split
    · rename_i hlt
      refine List.pairwise_cons.mpr ⟨fun m hm => ?_, h⟩
      rcases List.mem_cons.mp hm with hm | hm
      · exact hm ▸ hlt
      · exact String.lt_trans hlt (hn m hm)
    · rename_i hge
      split
      · rename_i he
        exact List.pairwise_cons.mpr ⟨fun m hm => he ▸ hn m hm, hr⟩
      · rename_i hne
        refine List.pairwise_cons.mpr ⟨fun m hm => ?_, ih hr⟩
        rcases mem_insertMember hm with hm | hm
        · subst hm
          exact String.not_le.mp fun hle => hne (String.le_antisymm hle (String.not_lt.mp hge))
        · exact hn m hm

/-- An object built from members keeps them in order. -/
theorem ordered_foldl_insertMember {members acc : List (String × Json)} (h : Ordered acc) :
    Ordered (members.foldl (fun acc m => insertMember m.1 m.2 acc) acc) := by
  induction members generalizing acc with
  | nil => exact h
  | cons m rest ih => exact ih (ordered_insertMember h)

end Json

end PlatformProxy
