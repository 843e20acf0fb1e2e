import PlatformProxy.Settings.Environment
import PlatformProxy.Settings.File
import PlatformProxy.Settings.Reading
import PlatformProxy.Yaml.Writer

/-!
# Where settings are kept

Settings are kept in one file of a directory. The environment is put over the file, and defaults
hold for what neither sets.

## Main definitions

* `Settings.Store` — the directory of the file
* `Settings.Place` — what stands in the file's place
* `Settings.Store.loadIn`, `Settings.Store.load` — loading, in any order of members and as they
  stand
* `Settings.Store.save`, `Settings.Store.saveDefault`
* `Settings.documentText` — the file of some settings

## Implementation notes

The functions do not touch a file system. They are told what stands in the file's place and answer
what will stand there.
-/

namespace PlatformProxy

namespace Settings

/-! ### Writing -/

open Yaml (Tree)

def natural (n : UInt64) : Tree := .word (toString n.toNat)

def truth (b : Bool) : Tree := .word (if b then "true" else "false")

namespace Server

def tree (s : Server) : Tree := .mapping
  [("bind_address", .text s.bindAddress), ("max_connections", natural s.maxConnections),
    ("max_message_size", natural s.maxMessageSize)]

end Server

namespace Steam

def tree (s : Steam) : Tree := .mapping
  [("app_id", natural s.app.toUInt64), ("required_tags", .sequence s.requiredTags),
    ("poll_interval_ms", natural s.pollInterval),
    ("snapshot", s.snapshot.elim (.word "null") .text)]

end Steam

namespace Logging

def tree (s : Logging) : Tree := .mapping
  [("dir", .text s.directory), ("prefix", .text s.fileStem), ("debug", truth s.debug),
    ("console", truth s.console), ("json", truth s.json)]

end Logging

/-- The text of the file of some settings. -/
def documentText (s : Settings) : String :=
  Tree.documentText
    [("server", s.server.tree), ("steam", s.steam.tree), ("logging", s.logging.tree)]

/-! ### The store -/

/-- Where the file of settings is kept. -/
structure Store where
  directory : String
  deriving DecidableEq, Repr

/-- What stands in the place of the file. -/
inductive Place
  | absent
  /-- Nothing, and a file stands in the place of the directory. -/
  | blocked
  /-- A directory of the file's name. -/
  | directory
  | file (contents : Bytes)
  deriving DecidableEq, Repr

/-- What can go wrong. -/
inductive StoreError
  | noDirectory (directory : String)
  | unreadable (path : String)
  | malformed (path : String)
  | unwritable (path : String)
  deriving DecidableEq, Repr

namespace StoreError

def message : StoreError → String
  | noDirectory directory => "Failed to create config directory: " ++ directory
  | unreadable path => "Failed to load config: " ++ path
  | malformed path => "Failed to parse config: " ++ path
  | unwritable path => "Failed to write config: " ++ path

end StoreError

/-- Whether anything stands there. -/
def Place.isThere : Place → Bool
  | absent | blocked => false
  | directory | file _ => true

/-- The first file among places. -/
def Place.firstFile (places : List Place) : Place :=
  (places.find? fun p => p matches file _).getD absent

/-- Settings from layers, the later ones over the earlier ones. -/
def ofLayers? (layers : List Layer) : Option Settings :=
  ofValue? (layers.foldl Layer.apply (.table []))

namespace Store

def fileName : String := "steam-proxy.yaml"

/-- The variable that names the directory. -/
def directoryVariable : String := "STEAM_PROXY_CONFIG_DIR"

/-- The store that the environment names; without a name it is the current directory. -/
def ofEnvironment (environment : List Variable) : Store :=
  match environment.reverse.find? fun v => v.name = directoryVariable with
  | some v => ⟨v.value⟩
  | none => ⟨"."⟩

/-- The path of a file in a directory. -/
def join (directory name : String) : String :=
  match directory.toList.getLast? with
  | none => name
  | some c => if c = '/' then directory ++ name else directory ++ "/" ++ name

def path (s : Store) : String := join s.directory fileName

/-- The paths at which the file may be, in the order in which they are tried. -/
def candidates (s : Store) : List String := [s.path, s.path ++ ".yaml", s.path ++ ".yml"]

/-- The layer of the file. What is no file does not count. -/
def fileLayer? : Place → Option Layer
  | .file contents => Layer.ofFile? contents
  | _ => some []

/-- Load the settings, with the members of every layer in some order. -/
def loadIn (order : Layer → Layer) (s : Store) (place : Place) (environment : List Variable) :
    Except StoreError Settings :=
  match fileLayer? place with
  | none => .error (.unreadable s.path)
  | some layer =>
    match ofLayers? [order layer, order (.ofEnvironment environment)] with
    | none => .error (.malformed s.path)
    | some settings => .ok settings

/-- Load the settings, with the members of the file as they stand there. -/
def load (s : Store) (place : Place) (environment : List Variable) : Except StoreError Settings :=
  s.loadIn id place environment

/-- Save settings, in place of a file that is there. -/
def save (s : Store) (place : Place) (settings : Settings) : Except StoreError Place :=
  match place with
  | .directory | .blocked => .error (.unwritable s.path)
  | .absent | .file _ => .ok (.file (Utf8.ofString settings.documentText))

/-- Save the defaults unless something is there already; whether they were saved. -/
def saveDefault (s : Store) (place : Place) : Except StoreError (Bool × Place) :=
  if place.isThere then .ok (false, place)
  else (s.save place .default).map (true, ·)

/-- The file the settings come from, if there is one. -/
def source (s : Store) (place : Place) : Option String :=
  if place.isThere then some s.path else none

end Store

end Settings

end PlatformProxy
