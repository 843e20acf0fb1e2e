import PlatformProxy.Floating.Text
import PlatformProxy.Yaml.Node

/-!
# What plain scalars stand for

A plain scalar without a tag is null, a truth value or a number if it is written like one, and
else a text. Numbers may be written in hexadecimal, octal and binary; a decimal integer has no
superfluous zeros in front, and digits with such zeros are a text.

## Main definitions

* `Yaml.Core` — the value of a scalar
* `Yaml.Core.integer?`, `Yaml.Core.real?` — numbers
* `Yaml.Core.ofPlain` — the value of a plain scalar
* `Yaml.Core.ofScalar?` — the value of any scalar, by its style and its tag
-/

namespace PlatformProxy

namespace Yaml

inductive Core
  | null
  | flag (b : Bool)
  | integer (i : Int)
  | real (x : Floating .double)
  | text (s : String)
  deriving DecidableEq, Repr

namespace Core

/-! ### Words -/

def isNullWord (s : String) : Bool := ["null", "Null", "NULL", "~"].contains s

def flag? (s : String) : Option Bool :=
  if ["true", "True", "TRUE"].contains s then some true
  else if ["false", "False", "FALSE"].contains s then some false
  else none

/-! ### Numbers -/

/-- The sign of a number and the rest. -/
def splitSign : List Char → Bool × List Char
  | '-' :: rest => (true, rest)
  | '+' :: rest => (false, rest)
  | rest => (false, rest)

/-- Whether a text is digits with superfluous zeros in front, but for a sign. -/
def hasLeadingZeros (s : List Char) : Bool :=
  match (splitSign s).2 with
  | '0' :: c :: rest => (c :: rest).all Char.isDigit
  | _ => false

/-- The value of an integer without a sign. -/
def magnitude? : List Char → Option Nat
  | '0' :: 'x' :: digits => Text.baseValue? 16 digits
  | '0' :: 'o' :: digits => Text.baseValue? 8 digits
  | '0' :: 'b' :: digits => Text.baseValue? 2 digits
  | digits => if hasLeadingZeros digits then none else Text.baseValue? 10 digits

def integer? (s : List Char) : Option Int :=
  let (negative, digits) := splitSign s
  (magnitude? digits).map fun n => if negative then -(n : Int) else n

/-- An integer without a minus sign, below a bound. -/
def natural? (bound : Nat) (s : List Char) : Option Nat :=
  match integer? s with
  | some (.ofNat n) => if s.head? ≠ some '-' ∧ n < bound then some n else none
  | _ => none

/-- Whether an integer fits in 128 bits; with a minus sign one of them is for the sign. -/
def isWide (s : List Char) (i : Int) : Bool :=
  if s.head? = some '-' then decide (-Nat.pow 2 127 ≤ i) else decide (i < Nat.pow 2 128)

/-- A finite decimal, or one of the words for the special values. -/
def real? (s : List Char) : Option (Floating .double) :=
  let body := match s with
    | '+' :: body => body
    | body => body
  if s.head? = some '+' ∧ (body.head? = some '+' ∨ body.head? = some '-') then none
  else if [".inf", ".Inf", ".INF"].contains (String.ofList body) then
    some (Floating.infinity .double false)
  else if ["-.inf", "-.Inf", "-.INF"].contains (String.ofList s) then
    some (Floating.infinity .double true)
  else if [".nan", ".NaN", ".NAN"].contains (String.ofList s) then some (Floating.nan .double)
  else (Floating.read? .double body).filter (·.isFinite)

/-! ### Scalars -/

/-- The value of a plain scalar. -/
def ofPlain (s : String) : Core :=
  let cs := s.toList
  if cs = [] ∨ isNullWord s then .null
  else
    match flag? s, (integer? cs).filter (isWide cs) with
    | some b, _ => .flag b
    | none, some i => .integer i
    | none, none =>
      match if hasLeadingZeros cs then none else real? cs with
      | some x => .real x
      | none => .text s

/-- Whether a tag is one of the language itself. -/
def isCore (tag : Tag) (kind : String) : Bool := tag.name = Tag.coreStem ++ kind

/-- Whether a tag asks for a kind of its own. -/
def isOwn (tag : Tag) : Bool := tag.name.toList.head? = some '!'

/-- The value of any scalar. A tag of one of the kinds of values asks for a value of that kind;
a tag of a kind of its own is for no reader here, and any other makes the scalar a text. -/
def ofScalar? (s : String) (style : Style) (tag : Option Tag) : Option Core :=
  match tag with
  | none => some (if style = .plain then ofPlain s else .text s)
  | some tag =>
    if isCore tag "bool" then (flag? s).map .flag
    else if isCore tag "int" then
      ((integer? s.toList).filter (isWide s.toList)).map .integer
    else if isCore tag "float" then (real? s.toList).map .real
    else if isCore tag "null" then if isNullWord s then some .null else none
    else if isOwn tag then none
    else some (.text s)

end Core

end Yaml

end PlatformProxy
