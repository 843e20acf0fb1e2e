import PlatformProxy.Floating.Basic
import PlatformProxy.Text.Digit

/-!
# Layers of settings

Settings come in layers, a file below the environment, and are put together before they are read.
A layer sets values at paths. A table that is set is merged into the table that is there; every
other value takes the place of what is there.

## Main definitions

* `Settings.Value` — a value before it is read
* `Settings.Path` — where a value is set
* `Settings.Value.merge`, `Settings.Path.set` — setting values

## Implementation notes

The members of a layer have no order of their own, and a program that keeps them in a hash table
sets them in any order. Here they are set as they stand. This is one of many results only where two
members of a file are for the same setting, as a section and a dotted path into it. Inside a table
names are different.
-/

namespace PlatformProxy

namespace Settings

/-- A value before it is read. -/
inductive Value
  | nothing
  | flag (b : Bool)
  | integer (i : Int)
  | real (x : Floating .double)
  | text (s : String)
  | list (items : List Value)
  | table (members : List (String × Value))
  deriving Repr, Inhabited

namespace Value

/-- The members of a table; anything else has none. -/
def members : Value → List (String × Value)
  | table ms => ms
  | _ => []

/-- The items of a list; anything else has none. -/
def items : Value → List Value
  | list vs => vs
  | _ => []

/-- Change the member of a name, which begins as nothing. -/
def changeMember (name : String) (f : Value → Value) :
    List (String × Value) → List (String × Value)
  | [] => [(name, f nothing)]
  | (k, v) :: rest => if k = name then (k, f v) :: rest else (k, v) :: changeMember name f rest

/-- Change the item of an index. Negative indices count from the end. The list grows, at the end
or at the front, until there is such an item. -/
def changeItem (index : Int) (f : Value → Value) (vs : List Value) : List Value :=
  if 0 ≤ index then
    let n := index.toNat
    (vs ++ List.replicate (n + 1 - vs.length) nothing).modify n f
  else
    let back := (-index).toNat
    let grown := List.replicate (back - vs.length) nothing ++ vs
    grown.modify (grown.length - back) f

mutual

/-- Put a value over another. -/
def merge (old : Value) : Value → Value
  | table ms => table (mergeMembers old.members ms)
  | v => v

/-- Put members over other members, one by one. -/
def mergeMembers (old : List (String × Value)) : List (String × Value) → List (String × Value)
  | [] => old
  | (name, v) :: rest => mergeMembers (changeMember name (fun w => merge w v) old) rest

end

end Value

/-- A step from a value to a value in it. -/
inductive Step
  | member (name : String)
  | item (index : Int)
  deriving DecidableEq, Repr

/-- Where a value is set: a name at the top, and steps from there. -/
structure Path where
  root : String
  steps : List Step
  deriving DecidableEq, Repr

namespace Path

/-- Characters of names. -/
def isNameChar (c : Char) : Bool := c.isAlphanum || c = '_' || c = '-'

/-- An index between brackets, with blanks around it, and what follows. -/
def readIndex? (s : List Char) : Option (Int × List Char) :=
  let isBlank (c : Char) : Bool := c = ' ' || c = '\t'
  let body := s.dropWhile isBlank
  let (sign, digits) := match body with
    | '-' :: digits => (['-'], digits)
    | digits => ([], digits)
  let numeral := sign ++ digits.takeWhile Char.isDigit
  match Text.readInt64? 10 numeral, (digits.dropWhile Char.isDigit).dropWhile isBlank with
  | some index, ']' :: rest => some (index, rest)
  | _, _ => none

/-- Steps up to the end of a text. -/
def readSteps? : (fuel : Nat) → List Char → Option (List Step)
  | _, [] => some []
  | 0, _ => none
  | fuel + 1, '.' :: rest =>
    match rest.takeWhile isNameChar with
    | [] => none
    | name => (readSteps? fuel (rest.dropWhile isNameChar)).map (.member (String.ofList name) :: ·)
  | fuel + 1, '[' :: rest => do
    let (index, rest) ← readIndex? rest
    (readSteps? fuel rest).map (.item index :: ·)
  | _, _ => none

/-- The path a text writes. A text that writes no path is a name as a whole. -/
def ofText (s : String) : Path :=
  let cs := s.toList
  match cs.takeWhile isNameChar, readSteps? cs.length (cs.dropWhile isNameChar) with
  | c :: name, some steps => ⟨String.ofList (c :: name), steps⟩
  | _, _ => ⟨s, []⟩

/-- Change what the steps lead to. -/
def change (f : Value → Value) : List Step → Value → Value
  | [], v => f v
  | .member name :: rest, v => .table (Value.changeMember name (change f rest) v.members)
  | .item index :: rest, v => .list (Value.changeItem index (change f rest) v.items)

/-- Set a value at a path. -/
def set (p : Path) (v : Value) (root : Value) : Value :=
  change (fun old => old.merge v) (.member p.root :: p.steps) root

end Path

/-- A layer: texts of paths with the values set there. -/
abbrev Layer : Type := List (String × Value)

namespace Layer

/-- Put a layer over what is there, its members as they stand. -/
def apply (root : Value) (layer : Layer) : Value :=
  layer.foldl (fun root m => (Path.ofText m.1).set m.2 root) root

end Layer

end Settings

end PlatformProxy
