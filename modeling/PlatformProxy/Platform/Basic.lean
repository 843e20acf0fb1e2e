import PlatformProxy.Floating.Basic

/-!
# The platform

The proxy asks a game platform for leaderboards and Workshop items. The platform's client library
is driven by callbacks: a call returns a handle at once, and its completion, tagged with that
handle, is collected later. The rows of a completed call are read one by one and have to be
released.

## Main definitions

* `CallRef`, `BoardRef`, `DownloadRef`, `PageRef` — what the library hands out
* `Platform.Completion` — how a call ends
* `Platform.Client` — the calls of the library
* `Platform.StartError` — why the library cannot be used

## Implementation notes

A client is a type of states with an implementation of the calls as transitions. Nothing is
assumed about an implementation: it may hand out the same handle twice, or complete a call that
was never made.
-/

namespace PlatformProxy

/-! ### Identifiers -/

/-- Identifies a user. -/
abbrev UserId : Type := UInt64

/-- Identifies an application. -/
abbrev AppId : Type := UInt32

/-- Identifies a call until it has completed. -/
structure CallRef where
  id : Nat
  deriving DecidableEq, Repr

/-- A leaderboard that has been found. -/
structure BoardRef where
  id : Nat
  deriving DecidableEq, Repr

/-- Rows of a leaderboard that have been downloaded. -/
structure DownloadRef where
  id : Nat
  deriving DecidableEq, Repr

/-- A page of Workshop items that has been downloaded. -/
structure PageRef where
  id : Nat
  deriving DecidableEq, Repr

namespace Platform

/-! ### Data -/

/-- A row of a leaderboard. -/
structure Entry where
  user : UserId
  rank : Int32
  score : Int32
  deriving DecidableEq, Repr

/-- A Workshop item. Its tags are one text with commas between them. -/
structure Item where
  publishedFile : UInt64
  owner : UserId
  fileName : String
  title : String
  description : String
  created : UInt32
  updated : UInt32
  fileSize : Int32
  votesUp : UInt32
  votesDown : UInt32
  score : Floating .single
  tags : String
  deriving DecidableEq, Repr

/-! ### Calls and their completions -/

/-- In which order a Workshop query lists items. -/
inductive Order
  | newestFirst
  deriving DecidableEq, Repr

/-- Which items a Workshop query is about. -/
inductive Matching
  | readyToUse
  deriving DecidableEq, Repr

/-- A request for one page of a Workshop query. -/
structure PageRequest where
  order : Order
  matching : Matching
  creatorApp : AppId
  consumerApp : AppId
  /-- Pages are counted from one. -/
  page : UInt32
  requiredTags : List String
  /-- Whether one of the required tags is enough. -/
  matchAnyTag : Bool
  searchText : Option String
  deriving DecidableEq, Repr

/-- The platform reported that a call did not work. -/
structure CallFailed where
  deriving DecidableEq, Repr

/-- Rows that are ready to be read. -/
structure Download where
  entries : DownloadRef
  count : Int32
  deriving DecidableEq, Repr

/-- A page that is ready to be read. -/
structure PageSummary where
  page : PageRef
  returned : UInt32
  /-- How many items match the query, over all pages. -/
  total : UInt32
  deriving DecidableEq, Repr

/-- How a call ends. A board that does not exist is not a failure. -/
inductive Completion
  | boardFound (result : Except CallFailed (Option BoardRef))
  | downloaded (result : Except CallFailed Download)
  | pageCompleted (result : Except CallFailed PageSummary)

/-- The kind of a completion, as it is called in messages. -/
inductive CompletionKind
  | boardFound
  | downloaded
  | pageCompleted
  deriving DecidableEq, Repr

namespace CompletionKind

def name : CompletionKind → String
  | boardFound => "LeaderboardFindResult"
  | downloaded => "LeaderboardScoresDownloaded"
  | pageCompleted => "SteamUGCQueryCompleted"

end CompletionKind

namespace Completion

def kind : Completion → CompletionKind
  | boardFound _ => .boardFound
  | downloaded _ => .downloaded
  | pageCompleted _ => .pageCompleted

end Completion

/-! ### The client library -/

/-- Why the library cannot be used. -/
inductive StartError
  | wrongVersion (detail : String)
  | noLibrary (detail : String)
  | notReady (detail : String)
  deriving DecidableEq, Repr

namespace StartError

def message : StartError → String
  | wrongVersion detail => "native client version mismatch: " ++ detail
  | noLibrary detail => "native library could not be loaded: " ++ detail
  | notReady detail => "native client initialization failed: " ++ detail

end StartError

/-- How many users one download of their rows may name. -/
def usersPerDownload : Nat := 100

/-- The calls of the library, as transitions of its states. -/
class Client (σ : Type) where
  /-- Bring the library up, before any other call. -/
  start : StateM σ (Except StartError Unit)
  /-- Tear the library down, after every other call. -/
  stop : StateM σ Unit
  findBoard (name : String) : StateM σ CallRef
  entryCount (board : BoardRef) : StateM σ Int32
  /-- Download the rows with ranks from `first` to `last`; ranks count from one. -/
  downloadRange (board : BoardRef) (first last : Int32) : StateM σ CallRef
  /-- Download the rows of some users. -/
  downloadUsers (board : BoardRef) (users : List UserId) : StateM σ CallRef
  /-- A downloaded row, if it can be read. -/
  entry (entries : DownloadRef) (index : Int32) : StateM σ (Option Entry)
  releaseEntries (entries : DownloadRef) : StateM σ Unit
  requestPage (request : PageRequest) : StateM σ CallRef
  /-- An item of a page, if it can be read. -/
  item (page : PageRef) (index : UInt32) : StateM σ (Option Item)
  /-- The address of an item's preview image, if it has one. -/
  preview (page : PageRef) (index : UInt32) : StateM σ (Option String)
  releasePage (page : PageRef) : StateM σ Unit
  /-- The name a user goes by. -/
  personaName (user : UserId) : StateM σ String
  /-- The completions since the last time. -/
  collect : StateM σ (List (CallRef × Completion))

end Platform

end PlatformProxy
