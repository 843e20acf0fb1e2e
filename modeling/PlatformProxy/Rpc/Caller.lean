import PlatformProxy.Frame.Incoming
import PlatformProxy.Rpc.Envelope
import PlatformProxy.Rpc.Method

/-!
# The calling side

A caller issues calls one at a time over a connection and numbers them. It waits for the response
with the number of its call; responses with other ids, as those to calls it has given up, are
passed over. Parameters are sent by position.

A call fails with the first fault of the stream, and when it hears the end. The connection stays
what it is for the next call, which goes on where the stream stands.

## Main definitions

* `Rpc.Call` — a call with its arguments
* `Rpc.Caller` — the calling side of a connection
* `Rpc.Caller.begin` — the bytes of a call
* `Rpc.Caller.poll` — the result of a call, if it is there
* `Rpc.CallError` — why a call has no result
-/

namespace PlatformProxy

namespace Rpc

/-! ### Calls -/

/-- A call with its arguments. -/
inductive Call
  | range (name : String) (first last : Int32)
  | players (name : String) (users : List UserId)
  | levels (maxResults : UInt32) (searchText : Option String)
  | personaName (user : UserId)
  deriving DecidableEq, Repr

namespace Call

def method : Call → Method
  | range _ _ _ => .leaderboardRange
  | players _ _ => .leaderboardPlayers
  | levels _ _ => .workshopLevels
  | personaName _ => .personaName

/-- The parameters, by position. -/
def params : Call → Json
  | range name first last => .array [.string name, Json.int32 first, Json.int32 last]
  | players name users => .array [.string name, Json.toJson users]
  | levels maxResults searchText =>
    .array [Json.uint32 maxResults, searchText.elim .null .string]
  | personaName user => .array [.natural user]

end Call

/-! ### Errors -/

/-- Why a call has no result. -/
inductive CallError
  | unreachable (reason : String)
  | framing (error : Frame.Error)
  | malformed (detail : String)
  | rpc (error : Error)
  | closed
  deriving DecidableEq, Repr

namespace CallError

def message : CallError → String
  | unreachable reason => "connection failed: " ++ reason
  | framing error => "framing error: " ++ error.message
  | malformed detail => "malformed message: " ++ detail
  | rpc error => error.display
  | closed => "connection closed before a response arrived"

end CallError

/-! ### The caller -/

/-- The calling side of a connection. -/
structure Caller where
  incoming : Frame.Incoming
  /-- The number of the latest call. -/
  latest : UInt64
  deriving DecidableEq, Repr

namespace Caller

def new : Caller := ⟨.new Frame.defaultLimit, 0⟩

/-- The request of the next call. -/
def request (c : Caller) (method : String) (params : Json) : Request :=
  .new (c.latest + 1) method params

/-- Begin the next call: its bytes, unless they are too many. The number is used up either way. -/
def begin (c : Caller) (method : String) (params : Json) : Except CallError Bytes × Caller :=
  ((Frame.encode c.incoming.receiver.limit (Json.bytesOf (c.request method params))).mapError
      .framing,
    { c with latest := c.latest + 1 })

/-- Bytes arrive. -/
def arrive (c : Caller) (chunk : Bytes) : Caller :=
  { c with incoming := c.incoming.arrive chunk }

/-- No more bytes will come. -/
def close (c : Caller) : Caller := { c with incoming := c.incoming.close }

variable {α : Type} [Json.Shaped α]

/-- What a message means to the latest call: its result, or nothing if it is the response to
another call. -/
def match? (c : Caller) (body : Bytes) : Option (Except CallError α) :=
  match Json.fromText body with
  | .error f => some (.error (.malformed (f.message body)))
  | .ok (r : Response) =>
    if r.id = .natural c.latest then some (r.resultAs.mapError .rpc) else none

/-- Listen for what ends the latest call, through at most `fuel` messages. -/
def listen : (fuel : Nat) → Caller → Option (Except CallError α) × Caller
  | 0, c => (none, c)
  | fuel + 1, c =>
    match c.incoming.next with
    | (none, incoming) => (none, { c with incoming })
    | (some (.fault e), incoming) => (some (.error (.framing e)), { c with incoming })
    | (some .ended, incoming) => (some (.error .closed), { c with incoming })
    | (some (.message body), incoming) =>
      let c := { c with incoming }
      match c.match? body with
      | some result => (some result, c)
      | none => listen fuel c

/-- The result of the latest call, if it is there. A message takes at least one byte. -/
def poll (c : Caller) : Option (Except CallError α) × Caller := listen (c.incoming.size + 1) c

end Caller

end Rpc

end PlatformProxy
