import PlatformProxy.Query.Leaderboard
import PlatformProxy.Query.Workshop

/-!
# The session

A single loop owns the client. In each round it starts the commands that have arrived, collects
completions, and routes each to the query that waits for it. Every command gets a ticket, under
which its outcome is filed. When the loop stops, commands and queries without an outcome are
dropped; to whoever waits for them, the session is closed.

## Main definitions

* `Session.Command`, `Session.Reply`, `Session.Outcome`
* `Session.Task`, `Session.Progress` — a query that waits, and what its steps lead to
* `Session` — the state of the loop
* `Session.start` — a session on a client, if the client can be started
* `Session.send` — a command arrives
* `Session.begin?`, `Session.resume?` — the steps of queries, as moves
* `Session.acceptNext`, `Session.route`, `Session.collect` — the parts of a round
* `Session.closeQueue`, `Session.dropNext`, `Session.tearDown` — the parts of the end
* `Session.round`, `Session.settle`, `Session.shutdown` — rounds of the loop

## Implementation notes

The parts of a round are transitions of their own, so that what happens between them can be
studied: a command may arrive at any time. A completion whose handle nobody waits for is counted
and dropped.
-/

namespace PlatformProxy

namespace Session

open Platform

/-- Identifies a command. -/
abbrev Ticket : Type := Nat

/-- What a caller can ask of a session. -/
inductive Command
  | leaderboard (name : String) (selector : Query.Selector)
  | workshop (search : Query.Search)
  | personaName (user : UserId)
  deriving DecidableEq, Repr

/-- What a caller gets. -/
inductive Reply
  | leaderboard (result : Query.Standings)
  | workshop (entries : List Query.Level)
  | personaName (name : String)
  deriving DecidableEq, Repr

/-- How a command ends. -/
abbrev Outcome : Type := Except Query.Error Reply

/-- A query that waits for a completion. -/
inductive Task
  | leaderboard (query : Query.Leaderboard)
  | workshop (query : Query.Workshop)
  deriving DecidableEq, Repr

/-- A query that waits, and the ticket of its command. -/
structure Pending where
  ticket : Ticket
  task : Task
  deriving DecidableEq, Repr

/-- What a command or a completion leads to: another call to wait for, or an outcome. -/
inductive Progress
  | await (call : CallRef) (task : Task)
  | done (outcome : Outcome)

namespace Progress

def ofStep {Q R : Type} (wrap : Q → Task) (reply : R → Reply) (step : Query.Step Q R) : Progress :=
  match step.next with
  | .await call query => .await call (wrap query)
  | .done result => .done (result.map reply)

end Progress

/-- Start the query of a command. A name is there at once. -/
def Command.start {σ : Type} [Client σ] (scope : Query.Scope) : Command → StateM σ Progress
  | .leaderboard name selector =>
    .ofStep .leaderboard .leaderboard <$> Query.Leaderboard.start name selector
  | .workshop search => .ofStep .workshop .workshop <$> Query.Workshop.start scope search
  | .personaName user => (fun name => .done (.ok (.personaName name))) <$> Client.personaName user

/-- Go on with a query. -/
def Task.advance {σ : Type} [Client σ] (completion : Completion) : Task → StateM σ Progress
  | .leaderboard query => .ofStep .leaderboard .leaderboard <$> query.advance completion
  | .workshop query => .ofStep .workshop .workshop <$> query.advance completion

end Session

/-- The state of the loop: commands in the order of their arrival, queries by the call they wait
for, outcomes in the order in which they were reached. -/
structure Session (σ : Type) where
  client : σ
  scope : Query.Scope
  nextTicket : Session.Ticket
  queue : List (Session.Ticket × Session.Command)
  pending : List (CallRef × Session.Pending)
  outcomes : List (Session.Ticket × Session.Outcome)
  /-- How many completions have been collected. -/
  dispatched : Nat
  isRunning : Bool

namespace Session

open Platform

variable {σ : Type} [Client σ]

/-- A session on a client, if the client can be started. -/
def start (client : σ) (scope : Query.Scope) : Except StartError (Session σ) :=
  match Client.start.run client with
  | (.error e, _) => .error e
  | (.ok (), client) =>
    .ok
      { client
        scope
        nextTicket := 0
        queue := []
        pending := []
        outcomes := []
        dispatched := 0
        isRunning := true }

/-- File an outcome. -/
def resolve (s : Session σ) (ticket : Ticket) (outcome : Outcome) : Session σ :=
  { s with outcomes := s.outcomes ++ [(ticket, outcome)] }

/-- The outcome of a command, once there is one. -/
def outcome? (s : Session σ) (ticket : Ticket) : Option Outcome :=
  (s.outcomes.find? fun o => o.1 = ticket).map Prod.snd

/-- A command arrives. After the end of the loop it is refused at once. -/
def send (s : Session σ) (command : Command) : Ticket × Session σ :=
  let ticket := s.nextTicket
  let s := { s with nextTicket := ticket + 1 }
  (ticket,
    if s.isRunning then { s with queue := s.queue ++ [(ticket, command)] }
    else s.resolve ticket (.error .closed))

/-- File the outcome of commands that are dropped. -/
def abandon (s : Session σ) (tickets : List Ticket) : Session σ :=
  tickets.foldl (fun s t => s.resolve t (.error .closed)) s

/-- Wait for a call. Whoever waited for a call of that handle is dropped. -/
def await (s : Session σ) (call : CallRef) (query : Pending) : Session σ :=
  let dropped := s.pending.filter fun p => p.1 = call
  let s := s.abandon (dropped.map fun p => p.2.ticket)
  { s with pending := (call, query) :: s.pending.filter fun p => p.1 ≠ call }

/-- A step of a query: the session without the query, its ticket, and what the step leads to. -/
structure Move (σ : Type) where
  session : Session σ
  ticket : Ticket
  progress : Progress

/-- Put the query back to wait, or file its outcome. -/
def Move.apply (m : Move σ) : Session σ :=
  match m.progress with
  | .await call task => m.session.await call ⟨m.ticket, task⟩
  | .done outcome => m.session.resolve m.ticket outcome

/-- The first command of the queue is started. -/
def begin? (s : Session σ) : Option (Move σ) :=
  match s.queue with
  | [] => none
  | (ticket, command) :: queue =>
    let (progress, client) := (command.start s.scope).run s.client
    some ⟨{ s with queue, client }, ticket, progress⟩

/-- Start the first command of the queue. -/
def acceptNext (s : Session σ) : Session σ := s.begin?.elim s Move.apply

/-- Start some commands of the queue. -/
def acceptMany : Nat → Session σ → Session σ
  | 0, s => s
  | n + 1, s => acceptMany n s.acceptNext

/-- The query that waits for a completion goes on. -/
def resume? (s : Session σ) (call : CallRef) (completion : Completion) : Option (Move σ) :=
  match s.pending.find? fun p => p.1 = call with
  | none => none
  | some (_, p) =>
    let (progress, client) := (p.task.advance completion).run s.client
    some ⟨{ s with pending := s.pending.filter fun p => p.1 ≠ call, client }, p.ticket, progress⟩

/-- Count a completion that has been collected. -/
def countDispatched (s : Session σ) : Session σ := { s with dispatched := s.dispatched + 1 }

/-- Route a completion to the query that waits for it. -/
def route (s : Session σ) (call : CallRef) (completion : Completion) : Session σ :=
  (s.countDispatched.resume? call completion).elim s.countDispatched Move.apply

/-- Collect completions. -/
def collect (s : Session σ) : List (CallRef × Completion) × Session σ :=
  let (completions, client) := Client.collect.run s.client
  (completions, { s with client })

/-- Collect completions and route them in order. -/
def deliver (s : Session σ) : Session σ :=
  let (completions, s) := s.collect
  completions.foldl (fun s c => s.route c.1 c.2) s

/-- A round of the loop. -/
def round (s : Session σ) : Session σ :=
  if s.isRunning then (acceptMany s.queue.length s).deliver else s

/-- Whether a command has no outcome yet. -/
def isBusy (s : Session σ) : Bool := !s.queue.isEmpty || !s.pending.isEmpty

/-- Rounds until every command has an outcome, but no more than `rounds`. -/
def settle : (rounds : Nat) → Session σ → Session σ
  | 0, s => s
  | rounds + 1, s => if s.isBusy then settle rounds s.round else s

/-- From now on commands are refused. -/
def closeQueue (s : Session σ) : Session σ := { s with isRunning := false }

/-- Drop the first command of the queue. -/
def dropNext (s : Session σ) : Session σ :=
  match s.queue with
  | [] => s
  | (ticket, _) :: queue => { s with queue }.resolve ticket (.error .closed)

/-- Drop some commands of the queue. -/
def dropMany : Nat → Session σ → Session σ
  | 0, s => s
  | n + 1, s => dropMany n s.dropNext

/-- Drop the queries that wait, and tear the client down. -/
def tearDown (s : Session σ) : Session σ :=
  let s := { s.abandon (s.pending.map fun p => p.2.ticket) with pending := [] }
  let ((), client) := Client.stop.run s.client
  { s with client }

/-- The end of the loop. -/
def close (s : Session σ) : Session σ := (dropMany s.queue.length s.closeQueue).tearDown

/-- The loop is told to stop: it finishes a round and ends. -/
def shutdown (s : Session σ) : Session σ := if s.isRunning then s.round.close else s

end Session

end PlatformProxy
