import PlatformProxy.Counters

/-!
# Connection slots

A server serves a limited number of connections at once. There is one permit for each slot. The
loop that accepts connections takes a permit first, so further peers wait where the system keeps
them. An accepted connection is served by a task of its own, which carries the permit along and
gives it back when it is over, whatever its ending. A connection that fails is counted by its task;
that one has broken down is only noticed when the loop next looks at the tasks that are over. None
stops the server.

## Main definitions

* `Rpc.Listener` — the state of a server
* `Rpc.Listener.Event` — what can happen
* `Rpc.Listener.step`, `Rpc.Listener.run` — what events change; events that cannot happen change
  nothing

## Implementation notes

A request to shut down is an event only when the loop sees it. The loop looks for one while it
waits for a permit or for a peer, and not while it pauses or looks at its tasks.
-/

namespace PlatformProxy

namespace Rpc

/-- How a connection ends. -/
inductive Ending
  | clean
  | failed
  /-- The connection broke down without a result. -/
  | panicked
  deriving DecidableEq, Repr

namespace Listener

/-- Where the accepting loop stands. -/
inductive Stage
  /-- Waiting for a permit. -/
  | waiting
  /-- Waiting for a peer, with a permit. -/
  | listening
  /-- Resting after a peer could not be accepted, still with the permit. -/
  | pausing
  /-- Looking at the tasks that are over. -/
  | joining
  /-- Shut down: open connections are cut off. -/
  | stopping
  deriving DecidableEq, Repr

/-- How many permits the loop has in hand. -/
def Stage.permits : Stage → Nat
  | waiting | joining | stopping => 0
  | listening | pausing => 1

end Listener

/-- The state of a server. Connections are numbered in the order in which they are accepted. -/
structure Listener where
  stage : Listener.Stage
  /-- Permits that nobody has. -/
  free : Nat
  /-- Open connections. Each has a permit. -/
  serving : List Nat
  /-- Connections that are over, with their endings, the latest first. -/
  ended : List (Nat × Ending)
  /-- The endings of tasks that are over and have not been looked at, the oldest first. -/
  unjoined : List Ending
  /-- Connections that were cut off at the end. -/
  aborted : List Nat
  metrics : Counters
  deriving DecidableEq, Repr

namespace Listener

/-- What can happen. -/
inductive Event
  | permitTaken
  | accepted
  | acceptFailed
  | pauseOver
  /-- The loop looks for one more task that is over. -/
  | joinNext
  | ended (connection : Nat) (ending : Ending)
  | shutdown
  /-- A connection is cut off. -/
  | aborted (connection : Nat)
  deriving DecidableEq, Repr

/-- A server that serves at least one connection at a time. -/
def new (maxConnections : Nat) : Listener :=
  ⟨.waiting, max 1 maxConnections, [], [], [], [], .zero⟩

/-- The loop takes a permit, if one is free. -/
def takePermit (l : Listener) : Listener :=
  match l.stage, l.free with
  | .waiting, free + 1 => { l with stage := .listening, free }
  | _, _ => l

/-- A connection is accepted and gets the permit of the loop. -/
def accept (l : Listener) : Listener :=
  match l.stage with
  | .listening =>
    { l with
      stage := .joining
      serving := l.serving ++ [l.metrics.accepted]
      metrics := l.metrics.countAccepted }
  | _ => l

/-- A peer could not be accepted. -/
def acceptFailed (l : Listener) : Listener :=
  match l.stage with
  | .listening => { l with stage := .pausing }
  | _ => l

/-- The loop starts again, and gives its permit back. -/
def endPause (l : Listener) : Listener :=
  match l.stage with
  | .pausing => { l with stage := .waiting, free := l.free + 1 }
  | _ => l

/-- The loop looks at a task that is over, or starts again if there is none. -/
def joinNext (l : Listener) : Listener :=
  match l.stage, l.unjoined with
  | .joining, [] => { l with stage := .waiting }
  | .joining, .panicked :: unjoined =>
    { l with unjoined, metrics := l.metrics.countConnectionError }
  | .joining, _ :: unjoined => { l with unjoined }
  | _, _ => l

/-- A connection is over, and its permit is given back. -/
def finish (l : Listener) (connection : Nat) (ending : Ending) : Listener :=
  if connection ∈ l.serving then
    { l with
      free := l.free + 1
      serving := l.serving.erase connection
      ended := (connection, ending) :: l.ended
      unjoined := l.unjoined ++ [ending]
      metrics := if ending = .failed then l.metrics.countConnectionError else l.metrics }
  else l

/-- The loop sees that it is to stop, and gives back the permit it may have. -/
def stop (l : Listener) : Listener :=
  match l.stage with
  | .waiting | .listening => { l with stage := .stopping, free := l.free + l.stage.permits }
  | _ => l

/-- An open connection is cut off, and its permit is given back. -/
def abort (l : Listener) (connection : Nat) : Listener :=
  if l.stage = .stopping ∧ connection ∈ l.serving then
    { l with
      free := l.free + 1
      serving := l.serving.erase connection
      aborted := connection :: l.aborted }
  else l

/-- What an event changes. -/
def step (l : Listener) : Event → Listener
  | .permitTaken => l.takePermit
  | .accepted => l.accept
  | .acceptFailed => l.acceptFailed
  | .pauseOver => l.endPause
  | .joinNext => l.joinNext
  | .ended connection ending => l.finish connection ending
  | .shutdown => l.stop
  | .aborted connection => l.abort connection

def run (l : Listener) (es : List Event) : Listener := es.foldl step l

end Listener

end Rpc

end PlatformProxy
