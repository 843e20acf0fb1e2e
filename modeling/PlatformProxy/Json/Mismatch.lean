import PlatformProxy.Json.Writer

/-!
# Values of the wrong type

What is said when a JSON value is not of the type that is wanted: what was found, and what was
expected instead.

## Main definitions

* `Json.Found` — what stands where something else was expected
* `Json.found` — the same for a value
* `Json.Mismatch` — the ways in which a value can fail to be of a type
-/

namespace PlatformProxy

namespace Json

/-- What stands where something else was expected. -/
inductive Found
  | null
  | flag (b : Bool)
  | integer (i : Int)
  | real (x : Floating .double)
  | string (s : String)
  | sequence
  | map
  deriving DecidableEq, Repr

namespace Found

def message : Found → String
  | null => "null"
  | flag b => "boolean `" ++ toString b ++ "`"
  | integer i => "integer `" ++ toString i ++ "`"
  | real x => "floating point `" ++ Floating.render doubleLayout x ++ "`"
  | string s => "string " ++ Text.quoted s
  | sequence => "sequence"
  | map => "map"

end Found

namespace Number

def found : Number → Found
  | natural n => .integer n.toNat
  | negative n => .integer (-(n.val + 1 : Int))
  | real x _ => .real x

end Number

/-- A value, as it is described where it does not belong. -/
def found : Json → Found
  | null => .null
  | bool b => .flag b
  | number n => n.found
  | string s => .string s
  | array _ => .sequence
  | object _ => .map

/-- How a value can fail to be of a type. -/
inductive Mismatch
  | wrongType (found : Found) (expected : String)
  | wrongValue (found : Found) (expected : String)
  | missingField (name : String)
  | duplicateField (name : String)
  /-- An array stands for a record and has too few items. -/
  | shortRecord (length : Nat) (title : String) (fields : Nat)
  /-- An array stands for a record and has too many items. -/
  | longRecord (length : Nat)
  deriving DecidableEq, Repr

namespace Mismatch

def message : Mismatch → String
  | wrongType found expected => "invalid type: " ++ found.message ++ ", expected " ++ expected
  | wrongValue found expected => "invalid value: " ++ found.message ++ ", expected " ++ expected
  | missingField name => "missing field `" ++ name ++ "`"
  | duplicateField name => "duplicate field `" ++ name ++ "`"
  | shortRecord length title fields =>
    "invalid length " ++ toString length ++ ", expected struct " ++ title ++ " with " ++
      toString fields ++ (if fields = 1 then " element" else " elements")
  | longRecord length =>
    "invalid length " ++ toString length ++ ", expected fewer elements in array"

end Mismatch

end Json

end PlatformProxy
