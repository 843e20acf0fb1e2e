import PlatformProxy.Floating.Text
import PlatformProxy.Settings.Layer
import PlatformProxy.Text.Lowercase

/-!
# Settings in the environment

A variable that begins with the proxy's name sets the value at the path that the rest of its name
writes, in any letter case, with two underscores for a point. What its value looks like decides
what it is: a truth value, an integer, another number, or a text. The required tags are the one
list: a text with commas.

## Main definitions

* `Settings.Variable` — a variable of the environment
* `Settings.Layer.ofEnvironment` — the layer that variables make up
-/

namespace PlatformProxy

namespace Settings

/-- A variable of the environment. -/
structure Variable where
  name : String
  value : String
  deriving DecidableEq, Repr

namespace Variable

/-- What the names of the variables begin with, in lower case. -/
def stem : List Char := "steam_proxy_".toList

/-- The path at which the value is a list. -/
def listPath : String := "steam.required_tags"

/-- Put points for pairs of underscores. -/
def pointed : List Char → List Char
  | '_' :: '_' :: rest => '.' :: pointed rest
  | c :: rest => c :: pointed rest
  | [] => []

/-- The text of the path a variable sets, if its name is one for the proxy. -/
def path? (v : Variable) : Option String :=
  let name := Text.lower v.name.toList
  if stem.isPrefixOf name then some (String.ofList (pointed (name.drop stem.length))) else none

/-- What the value of a variable looks like. -/
def value? (s : String) : Option Value :=
  let word := String.ofList (Text.lower s.toList)
  if word = "true" then some (.flag true)
  else if word = "false" then some (.flag false)
  else
    match Text.readInt64? 10 s.toList, Floating.read? .double s.toList with
    | some i, _ => some (.integer i)
    | none, some x => some (.real x)
    | none, none => none

/-- The value set at a path. -/
def valueAt (path s : String) : Value :=
  match value? s with
  | some v => v
  | none =>
    if path = listPath then
      .list ((s.toList.splitOn ',').map fun piece => .text (String.ofList piece))
    else .text s

end Variable

namespace Layer

/-- The layer that variables make up. Of variables for the same path the last one counts. -/
def ofEnvironment (environment : List Variable) : Layer :=
  environment.foldl (fun layer v =>
    match v.path? with
    | none => layer
    | some path => Value.changeMember path (fun _ => Variable.valueAt path v.value) layer) []

end Layer

end Settings

end PlatformProxy
