import PlatformProxy.Floating.Text
import PlatformProxy.Settings.Layer
import PlatformProxy.Text.Utf8
import PlatformProxy.Yaml.Node

/-!
# Settings in a file

The file is a YAML document, a mapping with names as keys. Its scalars are read by the simpler
rules of the later version of the language: what is null or a truth value has only one spelling,
and any decimal is a number.

## Main definitions

* `Settings.Scalar` — the value of a scalar
* `Settings.Value.ofNode?` — the value of a node
* `Settings.Layer.ofFile?` — the layer that a file makes up
-/

namespace PlatformProxy

namespace Settings

open Yaml (Node Style Tag)

/-- The value of a scalar. A scalar that is not what its tag asks for is bad; a real number is
kept as it is written. -/
inductive Scalar
  | bad
  | nothing
  | flag (b : Bool)
  | integer (i : Int)
  | real (s : String)
  | text (s : String)
  deriving DecidableEq, Repr

namespace Scalar

/-- Whether a text is a real number. Words count only with a point in front. -/
def isReal (s : String) : Bool :=
  ["inf", "Inf", "INF"].any (fun w => s = "." ++ w || s = "+." ++ w || s = "-." ++ w) ||
    ["nan", "NaN", "NAN"].any (fun w => s = "." ++ w) ||
    (s.toList.any Char.isDigit && (Floating.read? .double s.toList).isSome)

/-- The integer of a text with a base or a plus sign in front. -/
def markedInteger? : List Char → Option Int
  | '0' :: 'x' :: digits => Text.readInt64? 16 digits
  | '0' :: 'o' :: digits => Text.readInt64? 8 digits
  | '+' :: digits => Text.readInt64? 10 digits
  | _ => none

/-- The value of a plain scalar without a tag. -/
def ofPlain (s : String) : Scalar :=
  match markedInteger? s.toList with
  | some i => .integer i
  | none =>
    if s = "" ∨ s = "~" ∨ s = "null" then .nothing
    else if s = "true" then .flag true
    else if s = "false" then .flag false
    else
      match Text.readInt64? 10 s.toList with
      | some i => .integer i
      | none => if isReal s then .real s else .text s

/-- The value of a plain scalar with a tag of the language itself. -/
def ofTagged (kind s : String) : Scalar :=
  if kind = "bool" then
    if s = "true" then .flag true else if s = "false" then .flag false else .bad
  else if kind = "int" then (Text.readInt64? 10 s.toList).elim .bad .integer
  else if kind = "float" then if isReal s then .real s else .bad
  else if kind = "null" then if s = "~" ∨ s = "null" then .nothing else .bad
  else .text s

def ofNode (s : String) (style : Style) (tag : Option Tag) : Scalar :=
  if style ≠ .plain then .text s
  else
    match tag with
    | none => ofPlain s
    | some tag => if tag.stem = Tag.coreStem then ofTagged tag.suffix s else .text s

/-- The value as a setting. The words for special numbers cannot be settings. -/
def value? : Scalar → Option Value
  | bad => some .nothing
  | nothing => some .nothing
  | flag b => some (.flag b)
  | integer i => some (.integer i)
  | real s => (Floating.read? .double s.toList).map .real
  | text s => some (.text s)

/-- The text of a key. -/
def keyText? : Scalar → Option String
  | bad => none
  | nothing => none
  | flag b => some (if b then "true" else "false")
  | integer i => some (toString i)
  | real s => some s
  | text s => some s

end Scalar

/-- What has been read of a mapping: the key whose value comes next, the keys so far, and the
members. -/
structure Gathered where
  key : Option Scalar
  keys : List Scalar
  members : List (String × Value)

namespace Gathered

def empty : Gathered := ⟨none, [], []⟩

/-- Take the next node of a mapping, which may be a key; `value` is its value. A bad scalar is no
key, and the node after it takes its place. No key may be there twice. -/
def add (g : Gathered) (n : Node) (value : Option Value) : Option Gathered :=
  match g.key with
  | none =>
    match n with
    | .scalar s style tag =>
      let key := Scalar.ofNode s style tag
      if key = .bad then some g else some { g with key := some key }
    | .cyclic => some g
    | _ => none
  | some key => do
    let name ← key.keyText?
    let value ← value
    if g.keys.contains key then none
    else
      some ⟨none, key :: g.keys, Value.changeMember name (fun _ => value) g.members⟩

end Gathered

namespace Value

mutual

/-- The value of a node. -/
def ofNode? : Node → Option Value
  | .scalar s style tag => (Scalar.ofNode s style tag).value?
  | .sequence items _ => (ofNodes? items).map .list
  | .mapping pairs _ => (ofPairs? .empty pairs).map .table
  | .cyclic => some .nothing

def ofNodes? : List Node → Option (List Value)
  | [] => some []
  | n :: rest => do
    let v ← ofNode? n
    let vs ← ofNodes? rest
    pure (v :: vs)

/-- The members of a mapping, from what has been read of it. -/
def ofPairs? (g : Gathered) : List (Node × Node) → Option (List (String × Value))
  | [] => some g.members
  | p :: rest => (ofPair? g p).bind fun g => ofPairs? g rest

def ofPair? (g : Gathered) : Node × Node → Option Gathered
  | (a, b) => (g.add a (ofNode? a)).bind fun g => g.add b (ofNode? b)

end

end Value

namespace Layer

/-- The layer that a document makes up. -/
def ofNode? (n : Node) : Option Layer :=
  match Value.ofNode? n with
  | some (.table ms) => some ms
  | _ => none

/-- Pass over the mark that some editors put in front of a text. -/
def dropMark : Bytes → Bytes
  | 0xEF :: 0xBB :: 0xBF :: rest => rest
  | bytes => bytes

/-- The layer that the contents of a file make up. Bytes that are no text are replaced, and a text
without a document is an empty layer. -/
def ofFile? (contents : Bytes) : Option Layer :=
  match Yaml.documents .modern (Utf8.decodeLossy (dropMark contents)) with
  | .ok [] => some []
  | .ok [n] => ofNode? n
  | _ => none

end Layer

end Settings

end PlatformProxy
