import PlatformProxy.Rpc.Params
import PlatformProxy.Rpc.Record
import PlatformProxy.Session

/-!
# Methods

The four things a caller can ask for, each with the names of its parameters, the command it gives
to the session, and the form of its result.

## Main definitions

* `Rpc.Method`, `Rpc.Method.ofName?`, `Rpc.Method.parameters`
* `Rpc.Method.command` — the command of a call
* `Rpc.call` — the same from the name of a method and the parameters of a request
* `Rpc.result` — the result of a call
-/

namespace PlatformProxy

namespace Rpc

/-- What a caller can ask for. -/
inductive Method
  | leaderboardRange
  | leaderboardPlayers
  | workshopLevels
  | personaName
  deriving DecidableEq, Repr

namespace Method

def name : Method → String
  | leaderboardRange => "GetLeaderboardRange"
  | leaderboardPlayers => "GetLeaderboardPlayers"
  | workshopLevels => "GetWorkshopLevels"
  | personaName => "GetPersonaName"

def all : List Method := [leaderboardRange, leaderboardPlayers, workshopLevels, personaName]

def ofName? (name : String) : Option Method := all.find? fun m => m.name = name

/-- The names of the parameters, by position. -/
def parameters : Method → List String
  | leaderboardRange => ["leaderboardName", "start", "end"]
  | leaderboardPlayers => ["leaderboardName", "players"]
  | workshopLevels => ["maxResults", "searchText"]
  | personaName => ["steamId"]

/-- Read the parameters in the order of their positions; the first that is wrong is reported. -/
def command : Method → Params.Reading Session.Command
  | leaderboardRange => do
    let name ← Params.required 0
    let first ← Params.required 1
    let last ← Params.required 2
    pure (.leaderboard name (.range first last))
  | leaderboardPlayers => do
    let name ← Params.required 0
    let players ← Params.required 1
    pure (.leaderboard name (.users players))
  | workshopLevels => do
    let maxResults ← Params.required 0
    let searchText ← Params.optional 1
    pure (.workshop ⟨maxResults, searchText⟩)
  | personaName => do
    let user ← Params.required 0
    pure (.personaName user)

end Method

/-- The command of a call. Nothing is sent to the session unless there is one. -/
def call (method : String) (params : Option Json) : Except Error Session.Command :=
  match Method.ofName? method with
  | none => .error (.methodNotFound method)
  | some m =>
    match Params.parse params m.parameters with
    | .error e => .error e
    | .ok p => (m.command.run.run p).1

/-- The result of a call, as it is sent. -/
def result : Session.Reply → Json
  | .leaderboard result => Json.toJson (BoardRecord.ofResult result)
  | .workshop entries => Json.toJson (entries.map LevelRecord.ofEntry)
  | .personaName name => .string name

end Rpc

end PlatformProxy
