import PlatformProxy.Query.Basic

/-!
# Leaderboard queries

A leaderboard query finds a board by its name and downloads some of its rows: those of a range of
ranks, or those of some users. A board that does not exist has no rows. The result is complete or
an error; the downloaded rows are released in either case.

## Main definitions

* `Query.Selector` — which rows are wanted
* `Query.Leaderboard` — a leaderboard query that waits for a completion
* `Query.Leaderboard.start`, `Query.Leaderboard.advance` — its steps
-/

namespace PlatformProxy

namespace Query

open Platform

/-- Which rows of a board are wanted. -/
inductive Selector
  | range (first last : Int32)
  | users (users : List UserId)
  deriving DecidableEq, Repr

/-- A row together with the name of its user. -/
structure NamedEntry where
  entry : Entry
  playerName : String
  deriving DecidableEq, Repr

/-- The wanted rows of a board and the number of all its rows. -/
structure Standings where
  entries : List NamedEntry
  total : Int32
  deriving DecidableEq, Repr

namespace Standings

/-- The result for a board that does not exist. -/
def empty : Standings := ⟨[], 0⟩

end Standings

/-- What a leaderboard query waits for. -/
inductive LeaderboardStage
  | finding
  | downloading (total : Int32)
  deriving DecidableEq, Repr

namespace LeaderboardStage

def awaited : LeaderboardStage → CompletionKind
  | finding => .boardFound
  | downloading _ => .downloaded

end LeaderboardStage

/-- A leaderboard query that waits for a completion. -/
structure Leaderboard where
  name : String
  selector : Selector
  stage : LeaderboardStage
  deriving DecidableEq, Repr

/-- Limit an integer to 32 bits. -/
def saturate (i : Int) : Int := max Int32.minValue.toInt (min Int32.maxValue.toInt i)

namespace Selector

/-- How many of the downloaded rows are wanted. The platform may have sent more rows than were
asked for by a range; the width of the range is computed in 32 bits. -/
def wanted (selector : Selector) (count : Int32) : Nat :=
  match selector with
  | range first last =>
    let width := saturate (saturate (last.toInt - first.toInt) + 1)
    (min count.toInt width).toNat
  | users _ => count.toInt.toNat

end Selector

namespace Leaderboard

variable {σ : Type} [Client σ]

abbrev Step : Type := Query.Step Leaderboard Standings

def fail (query : Leaderboard) (error : Error) : Step :=
  ⟨.done (.error error), [.leaderboardFailed query.name error]⟩

/-- Look for the board. -/
def start (name : String) (selector : Selector) : StateM σ Step := do
  let call ← Client.findBoard name
  let warnings := match selector with
    | .range _ _ => []
    | .users users =>
      if usersPerDownload < users.length then [.tooManyUsers name users.length] else []
  pure ⟨.await call ⟨name, selector, .finding⟩, warnings⟩

/-- Download the rows of the board that was found. -/
def download (query : Leaderboard) (board : BoardRef) : StateM σ Step := do
  let total ← Client.entryCount board
  let call ← match query.selector with
    | .range first last => Client.downloadRange board first last
    | .users users => Client.downloadUsers board users
  pure (.await call { query with stage := .downloading total })

/-- Read `count` rows from `index` on, or up to the first that cannot be read, whose index is the
error. -/
def readEntries (entries : DownloadRef) :
    (count index : Nat) → List NamedEntry → StateM σ (Except Nat (List NamedEntry))
  | 0, _, acc => pure (.ok acc.reverse)
  | count + 1, index, acc => do
    match ← Client.entry entries (Int32.ofNat index) with
    | none => pure (.error index)
    | some entry =>
      let name ← Client.personaName entry.user
      readEntries entries count (index + 1) (⟨entry, name⟩ :: acc)

/-- What is said about a row that cannot be read. -/
def unreadable (name : String) (index : Nat) : Error :=
  .unreadable ("Error retrieving leaderboard entry " ++ toString index ++ " of '" ++ name ++ "'")

/-- Read and release the downloaded rows. -/
def read (query : Leaderboard) (total : Int32) (download : Download) : StateM σ Step := do
  let result ← readEntries download.entries (query.selector.wanted download.count) 0 []
  Client.releaseEntries download.entries
  match result with
  | .error index => pure (query.fail (unreadable query.name index))
  | .ok entries => pure (.done ⟨entries, total⟩)

/-- Go on after a completion. -/
def advance (query : Leaderboard) (completion : Completion) : StateM σ Step :=
  match query.stage, completion with
  | .finding, .boardFound (.error _) => pure (query.fail .callFailed)
  | .finding, .boardFound (.ok none) => pure (.done .empty)
  | .finding, .boardFound (.ok (some board)) => query.download board
  | .downloading _, .downloaded (.error _) => pure (query.fail .callFailed)
  | .downloading total, .downloaded (.ok download) => query.read total download
  | stage, other => pure (query.fail (.wrongCompletion stage.awaited.name other.kind.name))

end Leaderboard

end Query

end PlatformProxy
