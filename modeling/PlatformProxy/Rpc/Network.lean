import PlatformProxy.Rpc.Line
import PlatformProxy.Rpc.Server

/-!
# A server and its peers

Both ends of the connections of a server. A peer may send before it is accepted; what it has sent is
under way until the server takes it, in the order in which it was sent. Peers wait in the order in
which they came. What the server writes on a connection comes to its peer, and when the server has
dropped the connection the peer hears the end.

## Main definitions

* `Rpc.Peer` — a peer, with what it has sent and the server has not taken
* `Rpc.Network` — a server and its peers
* `Rpc.Network.Event`, `Rpc.Network.step`, `Rpc.Network.run` — what can happen, and what it changes
* `Rpc.Network.next?`, `Rpc.Network.settle` — what happens when nobody does anything
-/

namespace PlatformProxy

namespace Rpc

/-- What a peer sends: bytes, or that there is nothing more to come. -/
inductive Parcel
  | bytes (chunk : Bytes)
  | ending
  deriving DecidableEq, Repr

/-- What the server gets on a connection. -/
def Parcel.event (number : Nat) : Parcel → Server.Event
  | bytes chunk => .arrive number chunk
  | ending => .peerDone number

/-- A peer of a server. -/
structure Peer where
  line : Line
  /-- The number of its connection, once it is accepted. -/
  number : Option Nat
  /-- What it has sent and the server has not taken. -/
  underway : List Parcel

namespace Peer

def new : Peer := ⟨.new, none, []⟩

def post (p : Peer) (parcel : Parcel) : Peer := { p with underway := p.underway ++ [parcel] }

/-- Make a call. One with too many bytes is not sent. -/
def call (p : Peer) (α : Type) [Json.Shaped α] (method : String) (params : Json) : Peer :=
  let line := p.line.step (.call α method params)
  match line.calls.head?.bind (·.request.toOption) with
  | some request => { p with line }.post (.bytes request)
  | none => { p with line }

/-- Listen for the result of the latest call. -/
def listen (p : Peer) : Peer := { p with line := p.line.step .listen }

/-- Hear what a server has written, or that the connection is no longer there. -/
def hear {σ : Type} (s : Server σ) (p : Peer) : Peer :=
  match p.number with
  | none => p
  | some number =>
    match s.connection? number with
    | none => { p with line := p.line.step .peerDone }
    | some c => { p with line := p.line.step (.arrive (c.written.drop p.line.input.length)) }

end Peer

/-- A server and its peers, in the order in which they came. -/
structure Network (σ : Type) where
  server : Server σ
  peers : List Peer

namespace Network

/-- What can happen. A peer is meant by its place. -/
inductive Event : Type 1
  /-- A new peer comes. -/
  | join
  | call (peer : Nat) (α : Type) [Json.Shaped α] (method : String) (params : Json)
  | listen (peer : Nat)
  /-- A peer sends something that is not a call. -/
  | post (peer : Nat) (parcel : Parcel)
  /-- The server accepts the first peer that waits. -/
  | accept
  /-- The server takes what a peer has sent next. -/
  | take (peer : Nat)
  /-- Something else happens to the slots. -/
  | slots (event : Listener.Event)

variable {σ : Type}

/-- A server without peers. -/
def new (server : Server σ) : Network σ := ⟨server, []⟩

/-- Something has happened to the server, and the peers hear of it. -/
def refresh (server : Server σ) (peers : List Peer) : Network σ :=
  ⟨server, peers.map (Peer.hear server)⟩

/-- The server accepts the first peer that waits, if it waits for one. -/
def accept (n : Network σ) : Network σ :=
  match n.server.listener.stage, n.peers.findIdx? fun p => p.number.isNone with
  | .listening, some i =>
    let number := n.server.listener.metrics.accepted
    refresh (n.server.tell .accepted) (n.peers.modify i fun p => { p with number := some number })
  | _, _ => n

variable [Platform.Client σ]

/-- The server takes what an accepted peer has sent next. -/
def take (n : Network σ) (peer : Nat) : Network σ :=
  match n.peers[peer]? with
  | some ⟨_, some number, parcel :: rest⟩ =>
    refresh (n.server.step (parcel.event number))
      (n.peers.modify peer fun p => { p with underway := rest })
  | _ => n

/-- What an event changes. -/
def step (n : Network σ) : Event → Network σ
  | .join => { n with peers := n.peers ++ [.new] }
  | @Event.call peer α _ method params =>
    { n with peers := n.peers.modify peer (·.call α method params) }
  | .listen peer => { n with peers := n.peers.modify peer Peer.listen }
  | .post peer parcel => { n with peers := n.peers.modify peer (·.post parcel) }
  | .accept => n.accept
  | .take peer => n.take peer
  | .slots e => refresh (n.server.tell e) n.peers

def run (n : Network σ) (es : List Event) : Network σ := es.foldl step n

/-! ### Left alone -/

/-- What the accepting loop does next, if it does not wait. -/
def nextOfLoop? (n : Network σ) : Option Event :=
  match n.server.listener.stage with
  | .waiting => if n.server.listener.free = 0 then none else some (.slots .permitTaken)
  | .listening => if n.peers.any fun p => p.number.isNone then some .accept else none
  | .pausing => some (.slots .pauseOver)
  | .joining => some (.slots .joinNext)
  | .stopping => none

/-- What happens next when nobody does anything: a connection that is over gives its slot back, the
server takes what has been sent, or the loop goes on. -/
def next? (n : Network σ) : Option Event :=
  let finished := n.server.connections.findSome? fun c =>
    c.2.phase.ending?.map fun ending => Event.slots (.ended c.1 ending)
  let ready := n.peers.findIdx? fun p => p.number.isSome && !p.underway.isEmpty
  finished <|> ready.map .take <|> n.nextOfLoop?

/-- Leave a network alone until nothing happens any more, or for so many events. -/
def settle : (fuel : Nat) → Network σ → Network σ
  | 0, n => n
  | fuel + 1, n =>
    match n.next? with
    | none => n
    | some e => settle fuel (n.step e)

end Network

end Rpc

end PlatformProxy
