import PlatformProxy.Rpc.Error

/-!
# Requests and responses

A request names a method and carries parameters; one without an id is a notification, which is
not answered. A response carries the id of its request, and a result or an error.

## Main definitions

* `Rpc.Request`, `Rpc.Request.isNotification`
* `Rpc.Response`, `Rpc.Response.success`, `Rpc.Response.failure`
* `Rpc.Response.resultAs` — what the response to a call means to the caller
-/

namespace PlatformProxy

namespace Rpc

/-- The protocol version, sent with every message and not checked in any. -/
def version : String := "2.0"

/-- A request, or a notification. -/
structure Request where
  jsonrpc : String
  id : Option Json
  method : String
  params : Option Json
  deriving DecidableEq, Repr

open Json in
/-- An id or parameters that are null count as absent. -/
instance : Shaped Request where
  shape := .record "Request" (.cons "jsonrpc" false .text (.cons "id" false (.optional .any)
    (.cons "method" true .text (.cons "params" false (.optional .any) .nil))))
  ofValue := fun (jsonrpc, id, method, params, ()) =>
    ⟨jsonrpc.getD version, id.join, method, params.join⟩
  toValue := fun r => (some r.jsonrpc, r.id.map some, r.method, r.params.map some, ())

namespace Request

/-- A request with an id. -/
def new (id : UInt64) (method : String) (params : Json) : Request :=
  ⟨version, some (.natural id), method, some params⟩

def isNotification (r : Request) : Bool := r.id.isNone

end Request

/-- A response. -/
structure Response where
  jsonrpc : String
  id : Json
  result : Option Json
  error : Option Error
  deriving DecidableEq, Repr

open Json in
instance : Shaped Response where
  shape := .record "Response" (.cons "jsonrpc" true .text (.cons "id" true .any
    (.cons "result" false (.optional .any)
      (.cons "error" false (.optional (Shaped.shape Error)) .nil))))
  ofValue := fun (jsonrpc, id, result, error, ()) =>
    ⟨jsonrpc, id, result.join, error.join.map Shaped.ofValue⟩
  toValue := fun r =>
    (r.jsonrpc, r.id, r.result.map some, r.error.map fun e => some (Shaped.toValue e), ())

namespace Response

def success (id result : Json) : Response := ⟨version, id, some result, none⟩

def failure (id : Json) (error : Error) : Response := ⟨version, id, none, some error⟩

/-- What a response means to the caller: an error counts whatever else is there, and a missing
result is null. -/
def resultAs {α : Type} [Json.Shaped α] (r : Response) : Except Error α :=
  match r.error with
  | some e => .error e
  | none =>
    match Json.fromJson? (r.result.getD .null) with
    | .ok v => .ok v
    | .error m => .error (.malformedResult m)

end Response

end Rpc

end PlatformProxy
