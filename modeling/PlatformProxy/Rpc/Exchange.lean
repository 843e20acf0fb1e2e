import PlatformProxy.Rpc.Connection
import PlatformProxy.Rpc.Service

/-!
# Messages and the session

A message that asks for something waits for its command. Here messages meet the session: those of
one batch are all sent before any is waited for, as they would be if they arrived together.

## Main definitions

* `Rpc.Exchange` — a session with its counters
* `Rpc.Exchange.handleAll` — answer messages that arrive together
* `Rpc.Exchange.receive`, `Rpc.Exchange.peerDone` — the same for the messages of a connection
-/

namespace PlatformProxy

namespace Rpc

/-- A session with the counters of the proxy. -/
structure Exchange (σ : Type) where
  session : Session σ
  metrics : Counters

/-- A message that has been read: it is done, or waits for a command. -/
inductive Waiting
  | done (answer : Answer)
  | command (id : Option Json) (ticket : Session.Ticket)

namespace Exchange

open Platform

variable {σ : Type} [Client σ]

/-- Read a message and send its command. -/
def submit (x : Exchange σ) (body : Bytes) : Waiting × Exchange σ :=
  match Rpc.receive body with
  | .done answer => (.done answer, x)
  | .submitted id command =>
    let (ticket, session) := x.session.send command
    (.command id ticket, { x with session })

def submitAll (x : Exchange σ) : List Bytes → List Waiting × Exchange σ
  | [] => ([], x)
  | body :: rest =>
    let (w, x) := x.submit body
    let (ws, x) := submitAll x rest
    (w :: ws, x)

/-- The counters, with what the session has counted. -/
def counters (x : Exchange σ) : Counters := { x.metrics with completions := x.session.dispatched }

/-- The end of a message, if it has come. -/
def answer? (x : Exchange σ) : Waiting → Option Answer
  | .done answer => some answer
  | .command id ticket => (x.session.outcome? ticket).map (finish id)

/-- Finish messages in order. -/
def finishAll (x : Exchange σ) : List Waiting → List (Option Answer) × Exchange σ
  | [] => ([], x)
  | w :: rest =>
    let answer := x.answer? w
    let metrics := match answer with
      | some a => a.count x.metrics
      | none => x.metrics
    let (answers, x) := finishAll { x with metrics } rest
    (answer :: answers, x)

/-- Answer messages that arrive together, within some rounds of the session. -/
def handleAll (x : Exchange σ) (rounds : Nat) (bodies : List Bytes) :
    List (Option Answer) × Exchange σ :=
  let (waiting, x) := x.submitAll bodies
  finishAll { x with session := x.session.settle rounds } waiting

/-! ### Connections -/

/-- Answer the requests taken off a connection. -/
def answerAll (x : Exchange σ) (rounds : Nat) (requests : List (Nat × Bytes)) (c : Connection) :
    Connection × Exchange σ :=
  let (answers, x) := x.handleAll rounds (requests.map Prod.snd)
  let finished := (requests.map Prod.fst).zip answers
  (finished.foldl (fun c f => match f.2 with
    | some a => c.answer f.1 a.response
    | none => c) c, x)

/-- Bytes arrive on a connection. -/
def receive (x : Exchange σ) (rounds : Nat) (chunk : Bytes) (c : Connection) :
    Connection × Exchange σ :=
  let (requests, c) := c.receive chunk
  x.answerAll rounds requests c

/-- The peer of a connection has sent everything. -/
def peerDone (x : Exchange σ) (rounds : Nat) (c : Connection) : Connection × Exchange σ :=
  let (requests, c) := c.peerDone
  x.answerAll rounds requests c

end Exchange

end Rpc

end PlatformProxy
