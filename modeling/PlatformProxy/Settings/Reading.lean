import PlatformProxy.Floating.Text
import PlatformProxy.Settings.Basic
import PlatformProxy.Settings.Layer
import PlatformProxy.Text.Lowercase

/-!
# Reading settings

Values are read generously: what the setting is decides, and a number may be given as a text or a
text as a number. Only tables and lists are never read as a scalar, and nothing is read as one.

## Main definitions

* `Settings.Value.flag?`, `Settings.Value.natural?`, `Settings.Value.text?` — scalars
* `Settings.Value.texts?` — lists of texts
* `Settings.Value.fields?` — a section, from a table or from a list
* `Settings.ofValue?` — all settings
-/

namespace PlatformProxy

namespace Settings

namespace Value

/-- A text in lower case. -/
def word (s : String) : String := String.ofList (Text.lower s.toList)

def flag? : Value → Option Bool
  | flag b => some b
  | integer i => some (i ≠ 0)
  | real x => some (!x.isZero)
  | text s =>
    if ["1", "true", "on", "yes"].contains (word s) then some true
    else if ["0", "false", "off", "no"].contains (word s) then some false
    else none
  | _ => none

/-- The nearest natural number below `2 ^ 64`; nothing for what is not a number. -/
def nearestNatural (x : Floating .double) : Nat :=
  if x.isNaN ∨ x.negative then 0
  else if x.isFinite then min x.roundHalfAway.toNat (UInt64.size - 1)
  else UInt64.size - 1

/-- A numeral, or a word for a truth value. -/
def naturalOfText? (s : String) : Option Nat :=
  if ["true", "on", "yes"].contains (word s) then some 1
  else if ["false", "off", "no"].contains (word s) then some 0
  else
    match s.toList with
    | '+' :: digits => Text.baseValue? 10 digits
    | digits => Text.baseValue? 10 digits

/-- A natural number below a bound of at most `2 ^ 64`. -/
def natural? (bound : Nat) (v : Value) : Option Nat :=
  let n : Option Nat := match v with
    | flag b => some (if b then 1 else 0)
    | integer i => if 0 ≤ i then some i.toNat else none
    | real x => some (nearestNatural x)
    | text s => naturalOfText? s
    | _ => none
  n.filter (· < bound)

/-- How numbers are written where a text is wanted. -/
def realLayout : Floating.Layout := ⟨none, false, "NaN", "inf"⟩

def text? : Value → Option String
  | flag b => some (if b then "true" else "false")
  | integer i => some (toString i)
  | real x => some (Floating.render realLayout x)
  | text s => some s
  | _ => none

/-- A text, unless there is nothing. -/
def optionalText? : Value → Option (Option String)
  | nothing => some none
  | v => v.text?.map some

def texts? : Value → Option (List String)
  | list vs => vs.mapM text?
  | _ => none

/-- The values of the named fields of a section. A list gives them in order. -/
def fields? (names : List String) : Value → Option (List (Option Value))
  | table ms => some (names.map fun name => ms.lookup name)
  | list vs => some ((List.range names.length).map fun i => vs[i]?)
  | _ => none

/-- Read a field that may be left out. -/
def field? {α : Type} (read : Value → Option α) (default : α) : Option Value → Option α
  | none => some default
  | some v => read v

end Value

open Value

def Server.ofValue? (v : Value) : Option Server := do
  match ← v.fields? ["bind_address", "max_connections", "max_message_size"] with
  | [bindAddress, maxConnections, maxMessageSize] =>
    let bindAddress ← field? text? Server.default.bindAddress bindAddress
    let connections ←
      field? (natural? UInt64.size) Server.default.maxConnections.toNat maxConnections
    let size ← field? (natural? UInt64.size) Server.default.maxMessageSize.toNat maxMessageSize
    pure ⟨bindAddress, .ofNat connections, .ofNat size⟩
  | _ => none

def Steam.ofValue? (v : Value) : Option Steam := do
  match ← v.fields? ["app_id", "required_tags", "poll_interval_ms", "snapshot"] with
  | [app, requiredTags, pollInterval, snapshot] =>
    let app ← field? (natural? UInt32.size) Steam.default.app.toNat app
    let requiredTags ← field? texts? Steam.default.requiredTags requiredTags
    let pollInterval ← field? (natural? UInt64.size) Steam.default.pollInterval.toNat pollInterval
    let snapshot ← field? optionalText? Steam.default.snapshot snapshot
    pure ⟨.ofNat app, requiredTags, .ofNat pollInterval, snapshot⟩
  | _ => none

def Logging.ofValue? (v : Value) : Option Logging := do
  match ← v.fields? ["dir", "prefix", "debug", "console", "json"] with
  | [directory, fileStem, debug, console, json] =>
    let directory ← field? text? Logging.default.directory directory
    let fileStem ← field? text? Logging.default.fileStem fileStem
    let debug ← field? flag? Logging.default.debug debug
    let console ← field? flag? Logging.default.console console
    let json ← field? flag? Logging.default.json json
    pure ⟨directory, fileStem, debug, console, json⟩
  | _ => none

/-- All settings. -/
def ofValue? (v : Value) : Option Settings := do
  match ← v.fields? ["server", "steam", "logging"] with
  | [server, steam, logging] =>
    let server ← field? Server.ofValue? .default server
    let steam ← field? Steam.ofValue? .default steam
    let logging ← field? Logging.ofValue? .default logging
    pure ⟨server, steam, logging⟩
  | _ => none

end Settings

end PlatformProxy
