import PlatformProxy.Log
import PlatformProxy.Platform.Simulator
import PlatformProxy.Platform.SnapshotFile
import PlatformProxy.Port
import PlatformProxy.Rpc.Exchange
import PlatformProxy.Settings.Store

/-!
# From start to end

What the program does from its start to its end: it reads its argument and its settings, opens the
log, loads the snapshot, starts the session, serves until it is told to stop, and reports what it
has done. The first thing that goes wrong ends it. All of it happens on a host, whose operations
are given.

## Main definitions

* `Startup.Host` — the operations of a host
* `Startup.Failure` — why the program ends before its time
* `Startup.run` — the program; its result is the exit code

## Implementation notes

A failure before the log is open is told to the user only. Once the session has been started, it
is shut down and the counters are reported whether the server could be started or not.
-/

namespace PlatformProxy

namespace Startup

open Platform (Snapshot Simulator)

/-- The name the program reports. -/
def title : String := "steam-proxy v0.3.0"

/-- The operations of a host. A refusal comes with the reason that the system gives. -/
structure Host (m : Type → Type) where
  /-- Whether anything stands at a path. -/
  isThere : String → m Bool
  /-- What stands in the place of a file of settings. -/
  place : String → m Settings.Place
  /-- Create a directory and those it is in. -/
  createDirectory : String → m (Except String Unit)
  read : String → m (Except String Bytes)
  /-- Open the log, where its directory should be. -/
  openLog : Settings.Logging → m (Except String Unit)
  log : Log.Entry → m Unit
  /-- Write a line for the user. -/
  report : String → m Unit
  /-- Serve on a port until the program is told to stop. -/
  serve : Settings.Server → (port : Nat) → Rpc.Exchange Simulator →
    m (Except String (Rpc.Exchange Simulator))
  /-- Milliseconds since the start. -/
  uptime : m Nat

variable {m : Type → Type} [Monad m]

/-! ### Failures -/

/-- Why the program ends before its time. -/
inductive Failure
  /-- Something it needs cannot be had. -/
  | refused (message : String)
  /-- There is something in the place of the log that is not a log. -/
  | noLog (reason : String)
  deriving DecidableEq, Repr

namespace Failure

/-- What the user is told. -/
def message : Failure → String
  | refused message => message
  | noLog reason => "initializing rolling file appender failed: " ++ reason

def exitCode : Failure → UInt32
  | refused _ => 1
  | noLog _ => 101

end Failure

/-- Part of the program. -/
abbrev Part (m : Type → Type) (α : Type) : Type := ExceptT Failure m α

/-- Go on, or tell the user what went wrong and the reason for it. -/
def orFail {α : Type} (message : String) (result : Except String α) : Part m α :=
  match result with
  | .ok x => pure x
  | .error reason => throw (.refused (message ++ ": " ++ reason))

/-- The tags and the application of the settings. -/
def scope (s : Settings.Steam) : Query.Scope := ⟨s.app, s.requiredTags⟩

namespace Host

variable (h : Host m)

/-- Make sure that there is a directory. -/
def ensureDirectory (directory message : String) : Part m Unit := do
  if !(← h.isThere directory) then
    orFail message (← ExceptT.lift (h.createDirectory directory))

/-- Write a line to the log, if lines of its level are written. -/
def tell (logging : Settings.Logging) (level : Log.Level) (source : Log.Source)
    (message : String) : m Unit :=
  let entry : Log.Entry := ⟨level, source, message⟩
  if entry.isShown logging.debug then h.log entry else pure ()

/-- Load the settings. -/
def loadSettings (store : Settings.Store) (environment : List Settings.Variable) :
    Part m Settings := do
  h.ensureDirectory store.directory (Settings.StoreError.noDirectory store.directory).message
  let places ← store.candidates.mapM fun path => ExceptT.lift (h.place path)
  match store.load (.firstFile places) environment with
  | .ok settings => pure settings
  | .error e => throw (.refused e.message)

/-- Open the log and say what the program is and where its settings come from. -/
def openingLines (store : Settings.Store) (l : Settings.Logging) : Part m Unit := do
  h.ensureDirectory l.directory ("Failed to create log directory: " ++ l.directory)
  match ← ExceptT.lift (h.openLog l) with
  | .ok () => pure ()
  | .error reason => throw (.noLog reason)
  let truth (b : Bool) : String := if b then "true" else "false"
  h.tell l .info .logging ("Logging initialized: dir=" ++ l.directory ++ ", prefix=" ++
    l.fileStem ++ ", debug=" ++ truth l.debug ++ ", console=" ++ truth l.console ++
    ", json=" ++ truth l.json)
  h.tell l .info .main ("Starting " ++ title)
  match store.source (← h.place store.path) with
  | some path => h.tell l .info .main ("Loaded config from " ++ path)
  | none =>
    h.tell l .warn .main ("Config file not found at " ++ store.path ++ ", using defaults")

/-- Load the snapshot. -/
def loadSnapshot (s : Settings) : Part m Snapshot := do
  match s.steam.snapshot with
  | none =>
    throw (.refused ("steam.snapshot is not configured (set it in " ++ Settings.Store.fileName ++
      " or STEAM_PROXY_STEAM__SNAPSHOT)"))
  | some path =>
    match Snapshot.load path (← ExceptT.lift (h.read path)) with
    | .error e => throw (.refused (e.message ++ ": " ++ e.reason))
    | .ok snapshot =>
      h.tell s.logging .info .snapshot ("Loaded platform snapshot from " ++ path ++ " (" ++
        toString snapshot.boards.length ++ " leaderboards, " ++ toString snapshot.items.length ++
        " workshop items)")
      pure snapshot

/-- Start the session. -/
def openSession (s : Settings) (snapshot : Snapshot) : Part m (Rpc.Exchange Simulator) := do
  match Session.start (Simulator.new snapshot) (scope s.steam) with
  | .error e => throw (.refused e.message)
  | .ok session =>
    h.tell s.logging .debug .snapshot "Snapshot client initialized"
    pure ⟨session, .zero⟩

/-- Report the counters. -/
def closingLines (l : Settings.Logging) (metrics : Counters) : m Unit := do
  let uptime ← h.uptime
  let lines := metrics.summary.insertIdx 1 (Counters.uptimeLine uptime)
  lines.forM fun line => h.tell l .info .metrics line
  h.tell l .info .main "Shutdown complete"

/-- Serve, shut the session down, and report the counters. -/
def serveAndClose (s : Settings) (port : Nat) (x : Rpc.Exchange Simulator) : Part m Unit := do
  let served ← ExceptT.lift (h.serve s.server port x)
  let x ← match served with
    | .error _ => pure x
    | .ok x =>
      h.tell s.logging .info .main "Ctrl-C received, shutting down"
      pure x
  let x := { x with session := x.session.shutdown }
  h.tell s.logging .debug .snapshot "Snapshot client shut down"
  h.closingLines s.logging x.counters
  let _ ← orFail ("Failed to listen on port " ++ toString port) served

end Host

/-- The program after it has read its argument. -/
def runOn (h : Host m) (port : Nat) (environment : List Settings.Variable) : Part m Unit := do
  let store := Settings.Store.ofEnvironment environment
  let settings ← h.loadSettings store environment
  h.openingLines store settings.logging
  let snapshot ← h.loadSnapshot settings
  let x ← h.openSession settings snapshot
  h.serveAndClose settings port x

/-- The program; its result is the exit code. -/
def run (h : Host m) (arguments : List String) (environment : List Settings.Variable) :
    m UInt32 := do
  match Port.parse arguments with
  | .error e =>
    h.report e.message
    h.report Port.usage
    pure 1
  | .ok port =>
    match ← (runOn h port environment).run with
    | .ok () => pure 0
    | .error failure =>
      h.report failure.message
      pure failure.exitCode

end Startup

end PlatformProxy
