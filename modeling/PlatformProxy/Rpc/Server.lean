import PlatformProxy.Rpc.Exchange
import PlatformProxy.Rpc.Listener

/-!
# The server

A server has slots for its connections and one session behind all of them. A connection is new when
its peer is accepted, and it is there as long as it has its slot. Bytes that come over it are
answered by the session. When it is over, whoever serves it gives the slot back.

## Main definitions

* `Rpc.Server` — the state of a server
* `Rpc.Server.Event` — what can happen
* `Rpc.Server.step`, `Rpc.Server.run` — what events change
* `Rpc.Phase.ending?` — how a connection has ended

## Implementation notes

The messages that are completed by what arrives are answered before anything else happens. What may
happen between a message and its answer is the matter of `Rpc.Connection` and of the session, which
have smaller steps.
-/

namespace PlatformProxy

namespace Rpc

/-- How a connection has ended, if it is over. -/
def Phase.ending? : Phase → Option Ending
  | reading | draining => none
  | closed => some .clean
  | failed _ => some .failed

/-- The state of a server. -/
structure Server (σ : Type) where
  /-- Rounds of the session within which every command has an outcome. -/
  rounds : Nat
  /-- The limit on the length of messages. -/
  limit : Nat
  exchange : Exchange σ
  listener : Listener
  /-- The open connections with their numbers. -/
  connections : List (Nat × Connection)

namespace Server

/-- What can happen. -/
inductive Event
  /-- Something happens to the slots. -/
  | slots (event : Listener.Event)
  | arrive (connection : Nat) (chunk : Bytes)
  /-- The peer of a connection has sent everything. -/
  | peerDone (connection : Nat)
  deriving DecidableEq, Repr

variable {σ : Type}

/-- A server without connections. -/
def new (rounds limit maxConnections : Nat) (exchange : Exchange σ) : Server σ :=
  ⟨rounds, limit, exchange, .new maxConnections, []⟩

def connection? (s : Server σ) (number : Nat) : Option Connection := s.connections.lookup number

/-- Something happens to the slots. A connection that has got one is new, and one without a slot is
dropped. -/
def tell (s : Server σ) (e : Listener.Event) : Server σ :=
  let listener := s.listener.step e
  { s with
    listener
    connections := listener.serving.map fun number =>
      (number, (s.connection? number).getD (.new s.limit)) }

/-- A connection goes on, if it is open, with the session behind it. -/
def advance (s : Server σ) (number : Nat)
    (go : Exchange σ → Connection → Connection × Exchange σ) : Server σ :=
  match s.connection? number with
  | none => s
  | some c =>
    let (c, exchange) := go s.exchange c
    { s with
      exchange
      connections := s.connections.map fun p => if p.1 = number then (number, c) else p }

/-- The session with all that has been counted. -/
def counted (s : Server σ) : Exchange σ :=
  { s.exchange with
    metrics :=
      { s.exchange.metrics with
        accepted := s.listener.metrics.accepted
        connectionErrors := s.listener.metrics.connectionErrors } }

variable [Platform.Client σ]

/-- What an event changes. -/
def step (s : Server σ) : Event → Server σ
  | .slots e => s.tell e
  | .arrive number chunk => s.advance number fun x c => x.receive s.rounds chunk c
  | .peerDone number => s.advance number fun x c => x.peerDone s.rounds c

def run (s : Server σ) (es : List Event) : Server σ := es.foldl step s

end Server

end Rpc

end PlatformProxy
