import PlatformProxy.Rpc.Error

/-!
# Parameters

The parameters of a call are given by position or by name. Either way they end up in one slot for
each name the method knows. A parameter is read at most once: reading takes it out of its slot.

## Main definitions

* `Rpc.Params` — the slots
* `Rpc.Params.parse` — the slots for the parameters of a request
* `Rpc.Params.optional`, `Rpc.Params.required` — read a parameter
-/

namespace PlatformProxy

namespace Rpc

/-- One slot for each name, in the order of the positions. -/
structure Params where
  names : List String
  values : List (Option Json)
  deriving DecidableEq, Repr

namespace Params

/-- Parameters by position: slots without an item are empty. -/
def ofItems (names : List String) (items : List Json) : List (Option Json) :=
  items.map some ++ List.replicate (names.length - items.length) none

/-- Parameters by name: a member goes into the first slot of its name. -/
def ofMembers : (names : List String) → List (String × Json) → List (Option Json)
  | [], _ => []
  | name :: names, members =>
    Json.lookup name members :: ofMembers names (members.filter fun m => m.1 ≠ name)

/-- The parameters of a request. Members with other names do not matter. -/
def parse (params : Option Json) (names : List String) : Except Error Params :=
  match params with
  | none | some .null => .ok ⟨names, names.map fun _ => none⟩
  | some (.array items) =>
    if names.length < items.length then
      .error (.invalidParams ("expected at most " ++ toString names.length ++
        " parameters, got " ++ toString items.length))
    else .ok ⟨names, ofItems names items⟩
  | some (.object members) => .ok ⟨names, ofMembers names members⟩
  | some other =>
    .error (.invalidParams ("params must be an array or an object, got " ++ other.text))

/-- The name of a slot. -/
def name (p : Params) (index : Nat) : String := p.names.getD index ""

/-- Take a value out of its slot. -/
def take (p : Params) (index : Nat) : Option Json × Params :=
  ((p.values[index]?).join, { p with values := p.values.set index none })

/-- Reads parameters one after another. What has been read stays read when reading fails. -/
abbrev Reading (α : Type) : Type := ExceptT Error (StateM Params) α

variable {α : Type} [Json.Shaped α]

/-- A parameter that may be absent or null. -/
def optional (index : Nat) : Reading (Option α) := do
  let p ← get
  let (value, rest) := p.take index
  set rest
  match value with
  | none | some .null => pure none
  | some v =>
    match Json.fromJson? v with
    | .ok x => pure (some x)
    | .error m =>
      throw (.invalidParams ("parameter '" ++ p.name index ++ "': " ++ m.message))

/-- A parameter that has to be there. -/
def required (index : Nat) : Reading α := do
  match ← optional index with
  | some x => pure x
  | none =>
    let p ← get
    throw (.invalidParams ("missing parameter '" ++ p.name index ++ "'"))

end Params

end Rpc

end PlatformProxy
