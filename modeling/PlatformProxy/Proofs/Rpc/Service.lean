import PlatformProxy.Rpc.Service

/-!
# Messages and requests

A message is a request or is rejected, before anything else is looked at. Whether it is answered
does not depend on the session: only requests without an id are not.

## Main definitions

* `Rpc.requestOf` — the request in a message
* `Rpc.isNotification` — whether a message is not answered

## Main results

* `Rpc.isNone_response` — notifications, and nothing else, have no response
-/

namespace PlatformProxy

namespace Rpc

/-- The request in a message, or why there is none. -/
def requestOf (body : Bytes) : Except Error Request :=
  match Json.parse body with
  | .error f => .error (.parseError (f.message body))
  | .ok (.array _) => .error (.invalidRequest "batch requests are not supported")
  | .ok v => (Json.fromJson? v).mapError fun m => .invalidRequest m.message

theorem receive_eq (body : Bytes) :
    receive body = match requestOf body with
      | .error e => .done (.rejected e)
      | .ok r => submit r := by
  rw [receive, requestOf]
  cases Json.parse body with
  | error f => rfl
  | ok v =>
    -- Batches are rejected, and the other values are read alike.
    cases v with
    | array values => rfl
    | _ =>
      dsimp only
      generalize (Json.fromJson? _ : Except Json.Mismatch Request) = read
      cases read <;> rfl

/-- Whether a message is a request without an id. -/
def isNotification (body : Bytes) : Bool :=
  match requestOf body with
  | .error _ => false
  | .ok r => r.isNotification

theorem isNone_response_ofResult (id : Option Json) (result : Except Error Json) :
    (Answer.ofResult id result).response.isNone = id.isNone := by
  cases result <;> exact Option.isNone_map

/-- **Notifications have no response**, and all other messages have one, whatever the session
answers. -/
theorem isNone_response (answerCommand : Session.Command → Session.Outcome) (body : Bytes) :
    (handle answerCommand body).response.isNone = isNotification body := by
  rw [handle, isNotification, receive_eq]
  cases requestOf body with
  | error e => rfl
  | ok r =>
    dsimp only
    rw [submit]
    cases call r.method r.params with
    | error e => exact isNone_response_ofResult _ _
    | ok command => exact isNone_response_ofResult _ _

end Rpc

end PlatformProxy
