import PlatformProxy.Platform.Basic

/-!
# Recorded calls

A client that passes every call on to another one and keeps a list of the calls. What a query does
to the platform can be read off that list.

## Main definitions

* `Platform.Call` — a call with its arguments
* `Platform.Recording` — a client together with the calls made on it
-/

namespace PlatformProxy

namespace Platform

/-- A call with its arguments. -/
inductive Call
  | start
  | stop
  | findBoard (name : String)
  | entryCount (board : BoardRef)
  | downloadRange (board : BoardRef) (first last : Int32)
  | downloadUsers (board : BoardRef) (users : List UserId)
  | entry (entries : DownloadRef) (index : Int32)
  | releaseEntries (entries : DownloadRef)
  | requestPage (request : PageRequest)
  | item (page : PageRef) (index : UInt32)
  | preview (page : PageRef) (index : UInt32)
  | releasePage (page : PageRef)
  | personaName (user : UserId)
  | collect
  deriving DecidableEq, Repr

/-- A client and the calls made on it, in order. -/
structure Recording (σ : Type) where
  client : σ
  calls : List Call

namespace Recording

variable {σ : Type}

/-- Nothing has been called. -/
def of (client : σ) : Recording σ := ⟨client, []⟩

/-- Make a call and record it. -/
def perform {α : Type} (call : Call) (action : StateM σ α) : StateM (Recording σ) α := fun r =>
  let (result, client) := action.run r.client
  (result, ⟨client, r.calls ++ [call]⟩)

end Recording

instance {σ : Type} [Client σ] : Client (Recording σ) where
  start := Recording.perform .start Client.start
  stop := Recording.perform .stop Client.stop
  findBoard name := Recording.perform (.findBoard name) (Client.findBoard name)
  entryCount board := Recording.perform (.entryCount board) (Client.entryCount board)
  downloadRange board first last :=
    Recording.perform (.downloadRange board first last) (Client.downloadRange board first last)
  downloadUsers board users :=
    Recording.perform (.downloadUsers board users) (Client.downloadUsers board users)
  entry entries index := Recording.perform (.entry entries index) (Client.entry entries index)
  releaseEntries entries :=
    Recording.perform (.releaseEntries entries) (Client.releaseEntries entries)
  requestPage request := Recording.perform (.requestPage request) (Client.requestPage request)
  item page index := Recording.perform (.item page index) (Client.item page index)
  preview page index := Recording.perform (.preview page index) (Client.preview page index)
  releasePage page := Recording.perform (.releasePage page) (Client.releasePage page)
  personaName user := Recording.perform (.personaName user) (Client.personaName user)
  collect := Recording.perform .collect Client.collect

end Platform

end PlatformProxy
