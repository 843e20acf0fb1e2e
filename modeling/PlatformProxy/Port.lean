import PlatformProxy.Text.Blank
import PlatformProxy.Text.Digit

/-!
# The port argument

The command line is a single argument, the port to listen on.

## Main definitions

* `Port.parse` — the port named by the arguments
* `Port.Error` — why there is none
-/

namespace PlatformProxy

namespace Port

inductive Error
  | notOne
  | notPort (argument : String)
  deriving DecidableEq, Repr

namespace Error

def message : Error → String
  | notOne => "expected one parameter (what port to listen on)"
  | notPort argument => "invalid port '" ++ argument ++ "'"

end Error

/-- How the program is called. -/
def usage : String := "Usage: steam-proxy <port>"

/-- Ports lie below this. -/
def bound : Nat := 65536

/-- A numeral may carry a plus sign. -/
def dropPlus : List Char → List Char
  | '+' :: rest => rest
  | s => s

/-- The port written by one argument: an unsigned number, with blanks around it. -/
def read (argument : String) : Except Error Nat :=
  match Text.readBounded bound (dropPlus (Text.trim argument.toList)) with
  | .ok port => .ok port
  | .error _ => .error (.notPort argument)

/-- The port named by the arguments. -/
def parse : List String → Except Error Nat
  | [argument] => read argument
  | _ => .error .notOne

end Port

end PlatformProxy
