import PlatformProxy.Platform.Basic

/-!
# Recorded platform states

A snapshot holds everything the platform can be asked for, so that the proxy can run without it.

## Main definitions

* `Platform.Snapshot` — boards, items and names
* `Platform.Snapshot.addBoard`, `Platform.Snapshot.addPersona` — what is recorded later counts
-/

namespace PlatformProxy

namespace Platform

/-- A recorded row of a leaderboard; its rank is its position. -/
structure Row where
  user : UserId
  score : Int32
  deriving DecidableEq, Repr

/-- A recorded Workshop item. -/
structure RecordedItem where
  item : Item
  previewUrl : String
  deriving DecidableEq, Repr

/-- A recorded state of the platform. No two boards have the same name, and no user has two. -/
structure Snapshot where
  /-- The application the items belong to; without one they belong to every application. -/
  app : Option AppId
  boards : List (String × List Row)
  items : List RecordedItem
  personas : List (UserId × String)
  deriving DecidableEq, Repr

namespace Snapshot

def empty : Snapshot := ⟨none, [], [], []⟩

/-- Put a value under a key, in the place of a value that is there already. -/
def assign {κ α : Type} [DecidableEq κ] (key : κ) (value : α) : List (κ × α) → List (κ × α)
  | [] => [(key, value)]
  | (k, v) :: rest => if k = key then (k, value) :: rest else (k, v) :: assign key value rest

/-- Record a board. -/
def addBoard (s : Snapshot) (name : String) (rows : List Row) : Snapshot :=
  { s with boards := assign name rows s.boards }

/-- Record the name of a user. -/
def addPersona (s : Snapshot) (user : UserId) (name : String) : Snapshot :=
  { s with personas := assign user name s.personas }

/-- The rows of a board; a handle is the position of a board. -/
def rows? (s : Snapshot) (board : BoardRef) : Option (List Row) :=
  (s.boards[board.id]?).map Prod.snd

/-- The board of a name. -/
def findBoard? (s : Snapshot) (name : String) : Option BoardRef :=
  (s.boards.findIdx? fun b => b.1 = name).map BoardRef.mk

/-- What the platform calls users it does not know. -/
def unknownPersona : String := "[unknown]"

def personaName (s : Snapshot) (user : UserId) : String :=
  ((s.personas.find? fun p => p.1 = user).map Prod.snd).getD unknownPersona

end Snapshot

end Platform

end PlatformProxy
