import PlatformProxy.Yaml.Core

/-!
# Reading YAML nodes

Most values are read knowing what they have to be: a text may then be any scalar, and a number
any plain scalar that is written like one. Other values are read without that knowledge, and then
a scalar is what it looks like.

## Main definitions

* `Yaml.Node.text?`, `Yaml.Node.natural?`, `Yaml.Node.integer?` — scalars of a known kind
* `Yaml.Node.items?`, `Yaml.Node.pairs?` — collections; a missing one is empty
* `Yaml.Node.fields?` — a mapping with names as keys, read as a record
* `Yaml.Node.value?` — a value of whatever kind
-/

namespace PlatformProxy

namespace Yaml

/-- A value of whatever kind; the contents of collections are not kept. -/
inductive Value
  | scalar (c : Core)
  | collection
  deriving Repr

namespace Node

/-- The text of a scalar, however it is written. -/
def text? : Node → Option String
  | scalar s _ _ => some s
  | _ => none

/-- The text of a scalar that may be a number: a plain one, or a literal one with the tag for
integers. -/
def numeral? : Node → Option (List Char)
  | scalar s .plain _ => some s.toList
  | scalar s .literal (some tag) => if Core.isCore tag "int" then some s.toList else none
  | _ => none

/-- An integer below a bound, without a minus sign. -/
def natural? (bound : Nat) (n : Node) : Option Nat := n.numeral?.bind (Core.natural? bound)

/-- An integer in a range. -/
def integer? (least bound : Int) (n : Node) : Option Int :=
  (n.numeral?.bind Core.integer?).filter fun i => least ≤ i && i < bound

/-- Whether a node is there and not null. A tag for null asks for the word. -/
def optional? {α : Type} (read : Node → Option α) (n : Node) : Option (Option α) :=
  match n with
  | scalar s .plain none =>
    if s.toList = [] ∨ Core.isNullWord s then some none else (read n).map some
  | scalar s .plain (some tag) =>
    if Core.isCore tag "null" then if Core.isNullWord s then some none else none
    else (read n).map some
  | n => (read n).map some

def items? : Node → Option (List Node)
  | sequence items _ => some items
  | scalar s .plain _ => if s.toList = [] then some [] else none
  | _ => none

def pairs? : Node → Option (List (Node × Node))
  | mapping pairs _ => some pairs
  | scalar s .plain _ => if s.toList = [] then some [] else none
  | _ => none

/-- The pairs of a mapping whose keys are texts. -/
def members? (n : Node) : Option (List (String × Node)) := do
  (← n.pairs?).mapM fun (key, value) => key.text?.map (·, value)

/-- The pairs of a record: none of its known fields may be there twice. -/
def fields? (known : List String) (n : Node) : Option (List (String × Node)) := do
  let members ← n.members?
  if known.all fun name => (members.filter fun m => m.1 = name).length ≤ 1 then some members
  else none

/-- Whether an integer has a place among values of whatever kind. -/
def isShort : Core → Bool
  | .integer i => decide (Int64.minValue.toInt ≤ i ∧ i < UInt64.size)
  | _ => true

mutual

/-- A value of whatever kind, at most `depth` collections deep. -/
def value? (depth : Nat) : Node → Option Value
  | scalar s style tag =>
    ((Core.ofScalar? s style tag).filter isShort).map .scalar
  | sequence items tag =>
    match depth with
    | 0 => none
    | depth + 1 => if !tag.any Core.isOwn && areValues depth items then some .collection else none
  | mapping pairs tag =>
    match depth with
    | 0 => none
    | depth + 1 => if !tag.any Core.isOwn && arePairs depth pairs then some .collection else none
  | cyclic => none

/-- Whether all nodes are values of some kind. -/
def areValues (depth : Nat) : List Node → Bool
  | [] => true
  | n :: rest => (value? depth n).isSome && areValues depth rest

/-- The same for the keys and values of a mapping. -/
def arePairs (depth : Nat) : List (Node × Node) → Bool
  | [] => true
  | p :: rest => isPair depth p && arePairs depth rest

def isPair (depth : Nat) : Node × Node → Bool
  | (key, value) => (value? depth key).isSome && (value? depth value).isSome

end

end Node

end Yaml

end PlatformProxy
