import PlatformProxy.Frame.Codec
import PlatformProxy.Rpc.Envelope

/-!
# Connections

One connection of the server: requests are taken off the stream one by one and are in flight until
they are answered, in any order. When the peer has sent everything, the requests still in flight
are answered, and then the connection is closed. Whatever is wrong with the stream, or with a
response that is too long for it, ends the connection at once.

## Main definitions

* `Rpc.Connection` — the state of a connection
* `Rpc.Connection.arrive`, `Rpc.Connection.next`, `Rpc.Connection.peerDone` — bytes arrive, the
  next request is taken, no more bytes will come
* `Rpc.Connection.answer` — a request is finished
-/

namespace PlatformProxy

namespace Rpc

/-- How far a connection is. -/
inductive Phase
  | reading
  /-- The peer has sent everything. -/
  | draining
  | closed
  | failed (error : Frame.Error)
  deriving DecidableEq, Repr

/-- The state of a connection. Requests are numbered in the order in which they arrive. -/
structure Connection where
  receiver : Frame.Receiver
  nextRequest : Nat
  inFlight : List Nat
  written : Bytes
  phase : Phase
  deriving DecidableEq, Repr

namespace Connection

/-- A new connection with a limit on the length of messages. -/
def new (limit : Nat) : Connection := ⟨.new limit, 0, [], [], .reading⟩

/-- Bytes arrive. -/
def arrive (c : Connection) (chunk : Bytes) : Connection :=
  match c.phase with
  | .reading => { c with receiver := c.receiver.feed chunk }
  | _ => c

/-- Close a connection that has nothing left to do. -/
def settle (c : Connection) : Connection :=
  match c.phase, c.inFlight with
  | .draining, [] => { c with phase := .closed }
  | _, _ => c

/-- Use what the receiver made of the stream: a request that is complete is in flight. -/
def accept (c : Connection) (result : Except Frame.Error (Option Bytes) × Frame.Receiver) :
    Option (Nat × Bytes) × Connection :=
  let c := { c with receiver := result.2 }
  match result.1 with
  | .error e => (none, { c with phase := .failed e })
  | .ok none => (none, c)
  | .ok (some body) =>
    (some (c.nextRequest, body),
      { c with nextRequest := c.nextRequest + 1, inFlight := c.inFlight ++ [c.nextRequest] })

/-- Take the next request off the stream, if it is complete. -/
def next (c : Connection) : Option (Nat × Bytes) × Connection :=
  match c.phase with
  | .reading => c.accept c.receiver.decode
  | _ => (none, c)

/-- The same when no more bytes will come. Without another request the connection only has to
answer those in flight. -/
def nextAtEnd (c : Connection) : Option (Nat × Bytes) × Connection :=
  match c.phase with
  | .reading =>
    match c.accept c.receiver.finish with
    | (none, c) =>
      match c.phase with
      | .reading => (none, { c with phase := .draining }.settle)
      | _ => (none, c)
    | taken => taken
  | _ => (none, c)

/-- Write a response. -/
def write (c : Connection) (response : Response) : Connection :=
  match Frame.encode c.receiver.limit (Json.bytesOf response) with
  | .ok bytes => { c with written := c.written ++ bytes }
  | .error e => { c with phase := .failed e }

/-- A request is finished, with a response unless it was a notification. -/
def answer (c : Connection) (request : Nat) (response : Option Response) : Connection :=
  match c.phase with
  | .closed | .failed _ => c
  | .reading | .draining =>
    if request ∈ c.inFlight then
      let c := { c with inFlight := c.inFlight.erase request }
      match response with
      | none => c.settle
      | some r => (c.write r).settle
    else c

/-- Take all complete requests, at most `fuel`. -/
def nextAll : (fuel : Nat) → Connection → List (Nat × Bytes) × Connection
  | 0, c => ([], c)
  | fuel + 1, c =>
    match c.next with
    | (none, c) => ([], c)
    | (some r, c) =>
      let (rest, c) := nextAll fuel c
      (r :: rest, c)

/-- The same when no more bytes will come. -/
def nextAllAtEnd : (fuel : Nat) → Connection → List (Nat × Bytes) × Connection
  | 0, c => ([], c)
  | fuel + 1, c =>
    match c.nextAtEnd with
    | (none, c) => ([], c)
    | (some r, c) =>
      let (rest, c) := nextAllAtEnd fuel c
      (r :: rest, c)

/-- The peer has sent everything: the requests that are left. Each takes at least one byte. -/
def peerDone (c : Connection) : List (Nat × Bytes) × Connection :=
  nextAllAtEnd (c.receiver.buffer.length + 1) c

/-- Bytes arrive: the requests they complete. -/
def receive (c : Connection) (chunk : Bytes) : List (Nat × Bytes) × Connection :=
  let c := c.arrive chunk
  nextAll (c.receiver.buffer.length + 1) c

end Connection

end Rpc

end PlatformProxy
