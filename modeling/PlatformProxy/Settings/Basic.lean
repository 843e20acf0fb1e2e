import PlatformProxy.Json.Shaped
import PlatformProxy.Platform.Basic

/-!
# Settings

What can be set, in three sections, and what holds where nothing is set. A section may be left
out, and so may each of its fields.

## Main definitions

* `Settings` — all settings
* `Settings.default` — what holds where nothing is set
-/

namespace PlatformProxy

namespace Settings

/-- How the proxy listens. -/
structure Server where
  bindAddress : String
  maxConnections : UInt64
  maxMessageSize : UInt64
  deriving DecidableEq, Repr

/-- What the platform is asked for. -/
structure Steam where
  app : AppId
  /-- Levels carry one of these. -/
  requiredTags : List String
  /-- Milliseconds between two rounds of the session. -/
  pollInterval : UInt64
  /-- The file of the recorded platform state. -/
  snapshot : Option String
  deriving DecidableEq, Repr

/-- Where the log goes. -/
structure Logging where
  directory : String
  /-- What the names of log files begin with. -/
  fileStem : String
  debug : Bool
  console : Bool
  json : Bool
  deriving DecidableEq, Repr

namespace Server

def default : Server := ⟨"0.0.0.0", 1, 4194304⟩

end Server

namespace Steam

def default : Steam := ⟨233610, ["Sprint", "Challenge", "Stunt"], 10, none⟩

end Steam

namespace Logging

def default : Logging := ⟨"logs", "steam-proxy", false, true, false⟩

end Logging

end Settings

/-- All settings. -/
structure Settings where
  server : Settings.Server
  steam : Settings.Steam
  logging : Settings.Logging
  deriving DecidableEq, Repr

namespace Settings

def default : Settings := ⟨.default, .default, .default⟩

/-! ### JSON -/

open Json

instance : Shaped Server where
  shape := .record "ServerSettings" (.cons "bind_address" false .text
    (.cons "max_connections" false (.integer .size)
      (.cons "max_message_size" false (.integer .size) .nil)))
  ofValue := fun (bindAddress, maxConnections, maxMessageSize, ()) =>
    ⟨bindAddress.getD Server.default.bindAddress,
      maxConnections.getD Server.default.maxConnections,
      maxMessageSize.getD Server.default.maxMessageSize⟩
  toValue := fun s => (some s.bindAddress, some s.maxConnections, some s.maxMessageSize, ())

instance : Shaped Steam where
  shape := .record "SteamSettings" (.cons "app_id" false (.integer .nat32)
    (.cons "required_tags" false (.list .text) (.cons "poll_interval_ms" false (.integer .nat64)
      (.cons "snapshot" false (.optional .path) .nil))))
  ofValue := fun (app, requiredTags, pollInterval, snapshot, ()) =>
    ⟨app.getD Steam.default.app, requiredTags.getD Steam.default.requiredTags,
      pollInterval.getD Steam.default.pollInterval, snapshot.getD Steam.default.snapshot⟩
  toValue := fun s =>
    (some s.app, some s.requiredTags, some s.pollInterval, some s.snapshot, ())

instance : Shaped Logging where
  shape := .record "LoggingSettings" (.cons "dir" false .path (.cons "prefix" false .text
    (.cons "debug" false .flag (.cons "console" false .flag (.cons "json" false .flag .nil)))))
  ofValue := fun (directory, fileStem, debug, console, json, ()) =>
    ⟨directory.getD Logging.default.directory, fileStem.getD Logging.default.fileStem,
      debug.getD Logging.default.debug, console.getD Logging.default.console,
      json.getD Logging.default.json⟩
  toValue := fun s =>
    (some s.directory, some s.fileStem, some s.debug, some s.console, some s.json, ())

instance : Shaped Settings where
  shape := .record "ProxyConfig" (.cons "server" false (Shaped.shape Server)
    (.cons "steam" false (Shaped.shape Steam)
      (.cons "logging" false (Shaped.shape Logging) .nil)))
  ofValue := fun (server, steam, logging, ()) =>
    ⟨(server.map Shaped.ofValue).getD .default, (steam.map Shaped.ofValue).getD .default,
      (logging.map Shaped.ofValue).getD .default⟩
  toValue := fun s =>
    (some (Shaped.toValue s.server), some (Shaped.toValue s.steam),
      some (Shaped.toValue s.logging), ())

end Settings

end PlatformProxy
