import PlatformProxy.Rpc.Caller

/-!
# Calls on a connection

A line is the calling side of a connection with all the calls made on it. A call keeps what it has
heard while it waited, so that the history of a line can be told from its calls. Whoever makes a new
call gives up the one before.

## Main definitions

* `Rpc.Caller.heard` — what a call hears when it listens
* `Rpc.Wait` — a call that has been made
* `Rpc.Line`, `Rpc.Line.step`, `Rpc.Line.run` — the calls made on a connection
-/

namespace PlatformProxy

namespace Rpc

open PlatformProxy.Frame (Signal)

namespace Caller

/-- What the latest call hears when it listens through at most so many messages: everything up to
what ends it. -/
def hears : (count : Nat) → Caller → List Signal
  | 0, _ => []
  | count + 1, c =>
    match c.incoming.next with
    | (none, _) => []
    | (some (.fault e), _) => [.fault e]
    | (some .ended, _) => [.ended]
    | (some (.message body), incoming) =>
      match (c.match? body : Option (Except CallError Json)) with
      | some _ => [.message body]
      | none => .message body :: hears count { c with incoming }

/-- What the latest call hears when it listens. -/
def heard (c : Caller) : List Signal := c.hears (c.incoming.size + 1)

end Caller

/-- A call, with the type of its result. -/
structure Wait where
  Result : Type
  [shaped : Json.Shaped Result]
  number : UInt64
  /-- The bytes of its request, unless they were too many. -/
  request : Except CallError Bytes
  heard : List Signal
  result : Option (Except CallError Result)

attribute [instance] Wait.shaped

namespace Wait

/-- The result of a call that has only begun. A call whose request is too long never waits. -/
def atFirst {α : Type} : Except CallError Bytes → Option (Except CallError α)
  | .ok _ => none
  | .error e => some (.error e)

/-- The call that a caller has begun. -/
def begun (α : Type) [Json.Shaped α] (number : UInt64) (request : Except CallError Bytes) :
    Wait where
  Result := α
  number
  request
  heard := []
  result := atFirst request

/-- The call hears more, and perhaps ends. -/
def hear (w : Wait) (signals : List Signal) (result : Option (Except CallError w.Result)) : Wait :=
  { w with heard := w.heard ++ signals, result }

end Wait

/-- The calling side of a connection with the calls made on it, the latest first, and what has
come. -/
structure Line where
  caller : Caller
  calls : List Wait
  input : Bytes

namespace Line

/-- What can happen on the calling side. A new call gives up the one before it, if that one still
waits. -/
inductive Event : Type 1
  | call (α : Type) [Json.Shaped α] (method : String) (params : Json)
  | arrive (chunk : Bytes)
  | peerDone
  /-- The latest call listens for its response. -/
  | listen

def Event.isCall : Event → Bool
  | call _ _ _ => true
  | _ => false

/-- Nothing has happened yet. -/
def new : Line := ⟨.new, [], []⟩

/-- No more bytes will come. -/
def isDone (l : Line) : Bool := l.caller.incoming.isDone

/-- One event. -/
def step (l : Line) : Event → Line
  | @Event.call α _ method params =>
    let (request, caller) := l.caller.begin method params
    { l with caller, calls := .begun α caller.latest request :: l.calls }
  | .arrive chunk =>
    if l.isDone then l
    else { l with caller := l.caller.arrive chunk, input := l.input ++ chunk }
  | .peerDone => { l with caller := l.caller.close }
  | .listen =>
    match l.calls with
    | [] => l
    | w :: earlier =>
      if w.result.isSome then l
      else
        let (result, caller) := (l.caller.poll : Option (Except CallError w.Result) × Caller)
        { l with caller, calls := w.hear l.caller.heard result :: earlier }

def run (l : Line) (es : List Event) : Line := es.foldl step l

/-- What has been heard, in the order of the calls. -/
def heard (l : Line) : List Signal := l.calls.reverse.flatMap Wait.heard

end Line

end Rpc

end PlatformProxy
