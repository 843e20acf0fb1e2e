import PlatformProxy.Json.Shaped
import PlatformProxy.Query.Basic

/-!
# Error objects

A call that fails is answered with a code, a message and perhaps further data. The codes of the
protocol itself are those of JSON-RPC 2.0; failures of a query have codes of their own.

## Main definitions

* `Rpc.Error` — an error object
* `Rpc.Error.ofQuery` — the error object of a failed query
-/

namespace PlatformProxy

namespace Rpc

/-- An error object. -/
structure Error where
  code : Int64
  message : String
  data : Option Json
  deriving DecidableEq, Repr

namespace Error

def new (code : Int64) (message : String) : Error := ⟨code, message, none⟩

/-- How an error object is shown to people. -/
def display (e : Error) : String :=
  "JSON-RPC error " ++ toString e.code.toInt ++ ": " ++ e.message

/-! ### Failures of the protocol -/

def parseErrorCode : Int64 := -32700

def invalidRequestCode : Int64 := -32600

def methodNotFoundCode : Int64 := -32601

def invalidParamsCode : Int64 := -32602

def internalErrorCode : Int64 := -32603

/-- The message is not JSON. -/
def parseError (detail : String) : Error := new parseErrorCode ("Parse error: " ++ detail)

/-- The message is JSON but not a request. -/
def invalidRequest (detail : String) : Error :=
  new invalidRequestCode ("Invalid request: " ++ detail)

def methodNotFound (method : String) : Error :=
  new methodNotFoundCode ("Method not found: " ++ method)

def invalidParams (detail : String) : Error :=
  new invalidParamsCode ("Invalid params: " ++ detail)

def internal (detail : String) : Error := new internalErrorCode ("Internal error: " ++ detail)

/-- A result is not of the type the caller wants. -/
def malformedResult (mismatch : Json.Mismatch) : Error :=
  new internalErrorCode ("Malformed result: " ++ mismatch.message)

/-! ### Failures of queries -/

def callFailedCode : Int64 := -32000

def unreadableCode : Int64 := -32001

def closedCode : Int64 := -32002

def queryCode : Query.Error → Int64
  | .callFailed => callFailedCode
  | .unreadable _ => unreadableCode
  | .closed => closedCode
  | .wrongCompletion _ _ => internalErrorCode

/-- The error object of a failed query. -/
def ofQuery (e : Query.Error) : Error := new (queryCode e) e.message

end Error

open Json in
/-- Error objects leave out the data if there is none. -/
instance : Shaped Error where
  shape := .record "RpcError" (.cons "code" true (.integer .int64) (.cons "message" true .text
    (.cons "data" false (.optional .any) .nil)))
  ofValue := fun (code, message, data, ()) => ⟨code, message, data.join⟩
  toValue := fun e => (e.code, e.message, e.data.map some, ())

end Rpc

end PlatformProxy
