import PlatformProxy.Platform.Basic

/-!
# Queries

A query of a caller takes several calls of the platform. It is a state machine that makes a call,
waits for its completion, and in the end resolves, once, with a result or an error.

## Main definitions

* `Query.Error` — why a query has no result
* `Query.Warning` — what is put on record about a query
* `Query.Next`, `Query.Step` — what one step of a query leads to
-/

namespace PlatformProxy

namespace Query

open Platform

/-- Why a query has no result. -/
inductive Error
  | callFailed
  | unreadable (detail : String)
  | wrongCompletion (expected actual : String)
  | closed
  deriving DecidableEq, Repr

namespace Error

def message : Error → String
  | callFailed => "native call reported an I/O failure"
  | unreadable detail => detail
  | wrongCompletion expected actual =>
    "expected " ++ expected ++ " completion, got " ++ actual
  | closed => "native session is not running"

end Error

/-- What is put on record about a query. -/
inductive Warning
  | tooManyUsers (board : String) (count : Nat)
  | leaderboardFailed (board : String) (error : Error)
  | noPreview (publishedFile : UInt64)
  | searchFailed (page : Nat) (error : Error)
  deriving DecidableEq, Repr

namespace Warning

def message : Warning → String
  | tooManyUsers board count =>
    "Leaderboard '" ++ board ++ "' requested for " ++ toString count ++
      " users, native limit is " ++ toString usersPerDownload ++ " per call"
  | leaderboardFailed board error =>
    "Leaderboard query '" ++ board ++ "' failed: " ++ error.message
  | noPreview publishedFile =>
    "No preview image for workshop item " ++ toString publishedFile.toNat
  | searchFailed page error =>
    "Workshop search failed on page " ++ toString page ++ ": " ++ error.message

end Warning

/-- Where a query with states `Q` and results `R` stands. -/
inductive Next (Q R : Type)
  | await (call : CallRef) (query : Q)
  | done (reply : Except Error R)

/-- What one step of a query leads to. -/
structure Step (Q R : Type) where
  next : Next Q R
  warnings : List Warning

namespace Step

variable {Q R : Type}

def await (call : CallRef) (query : Q) : Step Q R := ⟨.await call query, []⟩

def done (result : R) : Step Q R := ⟨.done (.ok result), []⟩

end Step

end Query

end PlatformProxy
