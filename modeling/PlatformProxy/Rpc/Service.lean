import PlatformProxy.Rpc.Envelope
import PlatformProxy.Rpc.Method
import PlatformProxy.Counters

/-!
# The service

What happens to a message: it is read, its call becomes a command of the session, and when the
command has an outcome, the response is made. A message that gets no further than being read is
answered at once. Every message counts as served or as failed.

## Main definitions

* `Rpc.Reception` — what a message leads to at first
* `Rpc.receive` — read a message
* `Rpc.finish` — the end of a call whose command has an outcome
* `Rpc.Answer` — the end of a message
* `Rpc.handle` — a message from its bytes to its end, given how the session answers commands
-/

namespace PlatformProxy

namespace Rpc

/-- The end of a message: whether it counts as served, and the response unless it was a
notification. -/
structure Answer where
  served : Bool
  response : Option Response
  deriving DecidableEq, Repr

namespace Answer

/-- Count the message. -/
def count (a : Answer) (m : Counters) : Counters :=
  if a.served then m.countServed else m.countFailed

/-- A message that is not a request is answered without an id. -/
def rejected (e : Error) : Answer := ⟨false, some (.failure .null e)⟩

/-- The end of a call. -/
def ofResult (id : Option Json) : Except Error Json → Answer
  | .ok v => ⟨true, id.map fun id => .success id v⟩
  | .error e => ⟨false, id.map fun id => .failure id e⟩

end Answer

/-- What a message leads to at first: its end, or a command whose outcome is waited for. -/
inductive Reception
  | done (answer : Answer)
  | submitted (id : Option Json) (command : Session.Command)
  deriving DecidableEq, Repr

/-- The command of a request, or the end of the request if it has none. -/
def submit (r : Request) : Reception :=
  match call r.method r.params with
  | .error e => .done (.ofResult r.id (.error e))
  | .ok command => .submitted r.id command

/-- Read a message. -/
def receive (body : Bytes) : Reception :=
  match Json.parse body with
  | .error f => .done (.rejected (.parseError (f.message body)))
  | .ok (.array _) => .done (.rejected (.invalidRequest "batch requests are not supported"))
  | .ok v =>
    match Json.fromJson? v with
    | .error m => .done (.rejected (.invalidRequest m.message))
    | .ok r => submit r

/-- The end of a call whose command has an outcome. -/
def finish (id : Option Json) (outcome : Session.Outcome) : Answer :=
  .ofResult id (match outcome with
    | .ok reply => .ok (result reply)
    | .error e => .error (.ofQuery e))

/-- A message from its bytes to its end. -/
def handle (answerCommand : Session.Command → Session.Outcome) (body : Bytes) : Answer :=
  match receive body with
  | .done answer => answer
  | .submitted id command => finish id (answerCommand command)

end Rpc

end PlatformProxy
