import Std.Async.DNS
import Std.Async.Signal
import Std.Async.TCP
import Std.Async.Timer
import Std.Internal.UV.System
import Std.Time.Format
import PlatformProxy.Rpc.Server
import PlatformProxy.Startup

/-!
# The program on a real host

Files, the environment, sockets and the clock. What is done with them is decided elsewhere.

## Main definitions

* `Machine.host` — this machine as a host
* `main` — the program
-/

open Std.Async

namespace PlatformProxy

namespace Machine

open Platform (Simulator)

/-! ### Files -/

/-- The reason for an error as the system words it, with its number. -/
def reasonOf : IO.Error → String
  | .noFileOrDirectory _ code details | .inappropriateType _ code details
  | .permissionDenied _ code details | .alreadyExists _ code details
  | .invalidArgument _ code details | .noSuchThing _ code details
  | .resourceExhausted _ code details | .resourceBusy code details
  | .otherError code details | .unsupportedOperation code details
  | .resourceVanished code details | .hardwareFault code details =>
    details ++ " (os error " ++ toString code ++ ")"
  | e => toString e

def attempt {α : Type} (action : IO α) : IO (Except String α) :=
  try
    pure (.ok (← action))
  catch e => pure (.error (reasonOf e))

/-- Whether a path can be opened. Directories can, but not be read. -/
def isThere (path : String) : IO Bool := do
  match ← attempt (IO.FS.Handle.mk path .read) with
  | .ok _ => pure true
  | .error _ => pure false

def read (path : String) : IO (Except String Bytes) :=
  attempt do pure (← IO.FS.readBinFile path).toList

def place (path : String) : IO Settings.Place := do
  match ← read path with
  | .ok contents => pure (.file contents)
  | .error _ => pure (if ← isThere path then .directory else .absent)

/-- Create a directory; one without a name is there already. -/
def createDirectory (path : String) : IO (Except String Unit) :=
  if path.isEmpty then pure (.ok ()) else attempt (IO.FS.createDirAll path)

def environment : IO (List Settings.Variable) := do
  pure ((← Std.Internal.UV.System.osEnviron).toList.map fun (name, value) => ⟨name, value⟩)

/-! ### The log -/

/-- Where the log goes. -/
structure Logger where
  file : Option IO.FS.Handle
  settings : Settings.Logging

/-- The time, in a format. -/
def now (format : String) : IO String := do
  pure ((Std.Time.DateTime.ofTimestampWithZone (← Std.Time.Timestamp.now) .UTC).format format)

/-- Open the log of the day. -/
def openLog (logger : IO.Ref Logger) (settings : Settings.Logging) : IO (Except String Unit) :=
  attempt do
    let day ← now "uuuu-MM-dd"
    let name := if settings.fileStem.isEmpty then day else settings.fileStem ++ "." ++ day
    let file ← IO.FS.Handle.mk (Settings.Store.join settings.directory name) .append
    logger.set ⟨some file, settings⟩

/-- A line of the log: words, or an object. -/
def lineOf (json : Bool) (time : String) (e : Log.Entry) : String :=
  if json then
    (Json.ofMembers
      [("timestamp", .string time), ("level", .string e.level.name),
        ("fields", .ofMembers [("message", .string e.message)]),
        ("target", .string e.source.name)]).text
  else
    time ++ " " ++ "".pushn ' ' (5 - e.level.name.length) ++ e.level.name ++ " " ++ e.source.name ++
      ": " ++ e.message

def log (logger : IO.Ref Logger) (e : Log.Entry) : IO Unit := do
  let ⟨file, settings⟩ ← logger.get
  let time ← now "uuuu-MM-dd'T'HH:mm:ss.SSSSSS'Z'"
  if let some file := file then
    file.putStrLn (lineOf settings.json time e)
    file.flush
  if settings.console then IO.eprintln (lineOf false time e)

/-! ### The server -/

/-- What the connections share. -/
abbrev Shared := IO.Ref (Rpc.Server Simulator)

/-- Let something happen to the server. -/
def Shared.happen (s : Shared) (e : Rpc.Server.Event) : BaseIO Unit := s.modify (·.step e)

/-- Let something happen to the connection slots. -/
def Shared.tell (s : Shared) (e : Rpc.Listener.Event) : BaseIO Unit := s.happen (.slots e)

/-- Send what has been written since `sent` bytes were. -/
def send (client : TCP.Socket.Client) (c : Rpc.Connection) (sent : Nat) : Async Nat := do
  let fresh := c.written.drop sent
  if !fresh.isEmpty then client.send ⟨fresh.toArray⟩
  pure c.written.length

/-- Serve a connection until it is over. One that was cut off has nothing more to do. -/
partial def serveClient (s : Shared) (client : TCP.Socket.Client) (number sent : Nat) :
    Async Rpc.Ending := do
  let chunk ← client.recv? 65536
  s.happen (match chunk with
    | some bytes => .arrive number bytes.toList
    | none => .peerDone number)
  match (← s.get).connection? number with
  | none => pure .clean
  | some c =>
    let sent ← send client c sent
    match c.phase.ending? with
    | some ending => pure ending
    | none => serveClient s client number sent

/-- Serve an accepted connection and give its slot back. -/
def serveAccepted (s : Shared) (client : TCP.Socket.Client) (number : Nat) : Async Unit := do
  let ending ←
    try
      client.noDelay
      let ending ← serveClient s client number 0
      client.shutdown
      pure ending
    catch _ => pure .failed
  s.tell (.ended number ending)

/-- Accept connections while there are slots for them. -/
partial def acceptAll (s : Shared) (server : TCP.Socket.Server) : Async Unit := do
  let l := (← s.get).listener
  match l.stage with
  | .waiting =>
    if l.free = 0 then sleep 10
    s.tell .permitTaken
    acceptAll s server
  | .listening =>
    try
      let client ← server.accept
      let number := (← s.get).listener.metrics.accepted
      s.tell .accepted
      if (← s.get).listener.stage = .joining then background (serveAccepted s client number)
    catch _ => s.tell .acceptFailed
    acceptAll s server
  | .pausing =>
    sleep 100
    s.tell .pauseOver
    acceptAll s server
  | .joining =>
    s.tell .joinNext
    acceptAll s server
  | .stopping => pure ()

/-- Accept no more connections, and cut off those that are open. -/
partial def stopAll (s : Shared) : IO Unit := do
  s.tell .shutdown
  let l := (← s.get).listener
  if l.stage = .stopping then
    for connection in l.serving do
      s.tell (.aborted connection)
  else
    IO.sleep 10
    stopAll s

/-- The addresses a name stands for. -/
def resolve (name : String) : IO (List Std.Net.IPAddr) := do
  match Std.Net.IPv4Addr.ofString name, Std.Net.IPv6Addr.ofString name with
  | some addr, _ => pure [.v4 addr]
  | none, some addr => pure [.v6 addr]
  | none, none => pure (← (DNS.getAddrInfo name "").block).toList

def socketAddress (address : Std.Net.IPAddr) (port : UInt16) : Std.Net.SocketAddress :=
  match address with
  | .v4 addr => .v4 ⟨addr, port⟩
  | .v6 addr => .v6 ⟨addr, port⟩

def listen (settings : Settings.Server) (port : Nat) : IO TCP.Socket.Server := do
  match ← resolve settings.bindAddress with
  | [] => throw (.userError "could not resolve to any addresses")
  | address :: _ =>
    let server ← TCP.Socket.Server.mk
    server.bind (socketAddress address (UInt16.ofNat port))
    server.listen 1024
    pure server

/-- Serve until the program is interrupted. -/
def serve (settings : Settings.Server) (port : Nat) (x : Rpc.Exchange Simulator) :
    IO (Except String (Rpc.Exchange Simulator)) := attempt do
  let server ← listen settings port
  let s : Shared ← IO.mkRef
    (.new (x.session.client.snapshot.items.length + 4) settings.maxMessageSize.toNat
      settings.maxConnections.toNat x)
  let interrupt ← Signal.Waiter.mk .sigint false
  let interrupted ← interrupt.wait
  (background (acceptAll s server) : Async Unit).block
  let _ ← interrupted.block
  stopAll s
  pure (← s.get).counted

/-! ### The host -/

/-- This machine as a host. -/
def host (logger : IO.Ref Logger) (started : Nat) : Startup.Host IO where
  isThere := isThere
  place := place
  createDirectory := createDirectory
  read := read
  openLog := openLog logger
  log := log logger
  report := fun line => IO.eprintln line
  serve := serve
  uptime := do pure ((← IO.monoMsNow) - started)

end Machine

end PlatformProxy

open PlatformProxy in
/-- The program. -/
def main (arguments : List String) : IO UInt32 := do
  let started ← IO.monoMsNow
  let logger ← IO.mkRef ⟨none, .default⟩
  Startup.run (Machine.host logger started) arguments (← Machine.environment)
