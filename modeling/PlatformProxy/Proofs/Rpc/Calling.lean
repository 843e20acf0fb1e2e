import PlatformProxy.Proofs.Json.RoundTrip
import PlatformProxy.Proofs.Rpc.Classification
import PlatformProxy.Proofs.Session.Isolation
import PlatformProxy.Rpc.Caller

/-!
# Calls from end to end

A call goes through JSON four times: its arguments become the parameters of a request, the request
a text, the result of its command a JSON value, and the response a text again. The caller reads the
response at the type of the result. Unless a double is among them, all of this is undone exactly,
so the caller ends up with what the session had for the command, or with the error object of its
failure.

Levels have a score, which is a double. What the caller asks for arrives whatever the method, but
the results of that one are left out.

## Main definitions

* `Rpc.Call.command` — what a call asks of the session
* `Rpc.Caller.Gets` — what a caller gets of a call
* `Rpc.Caller.Agrees` — a caller gets what the session gives

## Main results

* `Rpc.commandOf_request` — a request arrives as the command of its call
* `Rpc.Caller.gets_ok`, `Rpc.Caller.gets_error` — a result arrives at its type, and a failure as
  its error object
* `Rpc.typed_calls_agree` — calls without doubles in their results
-/

namespace PlatformProxy

namespace Rpc

open Json (Legible)

/-! ### Messages -/

theorem legible_request {depth : Nat} {id params : Json} (hid : id.Plain depth ∧ id ≠ .null)
    (hparams : params.Plain depth ∧ params ≠ .null) (method : String) :
    Legible (depth + 1) (Request.mk version (some id) method (some params)) :=
  ⟨⟨by decide, trivial, hid, trivial, hparams, trivial⟩, rfl⟩

theorem legible_error (depth : Nat) {e : Error} (h : e.data = none) : Legible (depth + 1) e := by
  obtain ⟨code, message, data⟩ := e
  obtain rfl : data = none := h
  exact ⟨⟨by decide, trivial, trivial, trivial⟩, rfl⟩

theorem legible_success {depth : Nat} {id result : Json} (hid : id.Plain depth)
    (hresult : result.Plain depth) (hnull : result ≠ .null) :
    Legible (depth + 1) (Response.success id result) :=
  ⟨⟨by decide, trivial, hid, ⟨hresult, hnull⟩, trivial⟩, rfl⟩

theorem legible_failure {depth : Nat} {id : Json} (hid : id.Plain (depth + 1)) {e : Error}
    (h : e.data = none) : Legible (depth + 2) (Response.failure id e) := by
  obtain ⟨code, message, data⟩ := e
  obtain rfl : data = none := h
  exact ⟨⟨by decide, trivial, hid, ⟨(legible_error depth rfl).plain, nofun⟩, trivial⟩, rfl⟩

/-- A request is read as itself. -/
theorem isRequest_bytesOf {r : Request} (h : Legible Json.maxDepth r) :
    IsRequest (Json.bytesOf r) r :=
  ⟨Json.toJson r, Json.parse_bytesOf h, fun _ => nofun, Json.fromJson?_toJson h⟩

/-! ### Results -/

theorem legible_entryRecord (depth : Nat) (r : EntryRecord) : Legible (depth + 1) r :=
  ⟨⟨by decide, trivial, trivial, trivial, trivial, trivial⟩, rfl⟩

theorem legible_boardRecord (depth : Nat) (r : BoardRecord) : Legible (depth + 3) r := by
  have hentries : Legible (depth + 2) r.entries :=
    Json.legible_list fun e _ => legible_entryRecord depth e
  refine ⟨⟨by decide, hentries.plain, trivial, trivial⟩, ?_⟩
  exact congrArg (BoardRecord.mk · r.total) hentries.ofValue

/-! ### Requests -/

namespace Call

/-- What a call asks of the session. -/
def command : Call → Session.Command
  | range name first last => .leaderboard name (.range first last)
  | players name users => .leaderboard name (.users users)
  | levels maxResults searchText => .workshop ⟨maxResults, searchText⟩
  | personaName user => .personaName user

theorem plain_params (c : Call) (depth : Nat) : c.params.Plain (depth + 2) := by
  have hname : ∀ name : String, (Json.string name).Plain (depth + 1) := .string
  cases c with
  | range name first last =>
    refine .array (List.forall_mem_cons.mpr ⟨hname name, List.forall_mem_cons.mpr ⟨?_, ?_⟩⟩)
    · exact (Json.legible_int32 _ first).plain_toJson
    · exact List.forall_mem_singleton.mpr (Json.legible_int32 _ last).plain_toJson
  | players name users =>
    refine .array (List.forall_mem_cons.mpr ⟨hname name, List.forall_mem_singleton.mpr ?_⟩)
    exact (Json.legible_list fun user _ => Json.legible_nat64 depth user).plain_toJson
  | levels maxResults searchText =>
    refine .array (List.forall_mem_cons.mpr ⟨.natural _, List.forall_mem_singleton.mpr ?_⟩)
    cases searchText with
    | none => exact .null
    | some text => exact hname text
  | personaName user => exact .array (List.forall_mem_singleton.mpr (.natural user))

theorem params_ne_null (c : Call) : c.params ≠ .null := by
  cases c <;> exact nofun

/-- The parameters of a call stand for its arguments. -/
theorem standsFor_params (c : Call) : StandsFor c.method (some c.params) c.command := by
  cases c with
  | range name first last =>
    exact ⟨.byPosition _ (Nat.le_refl 3), .leaderboardRange rfl rfl rfl⟩
  | players name users =>
    refine ⟨.byPosition _ (Nat.le_refl 2), .leaderboardPlayers rfl ?_⟩
    exact congrArg some (Json.toJson_list users)
  | levels maxResults searchText =>
    refine ⟨.byPosition _ (Nat.le_refl 2), ?_⟩
    cases searchText with
    | none => exact .allWorkshopLevels rfl (.inr rfl)
    | some text => exact .workshopLevels rfl rfl
  | personaName user => exact ⟨.byPosition _ (Nat.le_refl 1), .personaName rfl⟩

end Call

theorem legible_request_call (caller : Caller) (c : Call) :
    Legible Json.maxDepth (caller.request c.method.name c.params) :=
  legible_request ⟨.natural _, nofun⟩ ⟨c.plain_params _, c.params_ne_null⟩ _

/-- **A request arrives as the command of its call**, under its id. -/
theorem commandOf_request (caller : Caller) (c : Call) :
    commandOf (Json.bytesOf (caller.request c.method.name c.params)) = .ok c.command ∧
      responseId (Json.bytesOf (caller.request c.method.name c.params)) =
        (caller.request c.method.name c.params).id := by
  have hrequest := isRequest_bytesOf (legible_request_call caller c)
  refine ⟨(checked _).eq_ok_iff.mpr ⟨_, hrequest, c.method, rfl, c.standsFor_params⟩, ?_⟩
  exact responseId_of_isRequest hrequest

/-! ### Responses -/

namespace Exchange

variable {σ : Type} [Platform.Client σ]

/-- A message that comes alone is answered as its command ends. -/
theorem handleAll_singleton (x : Exchange σ) {body : Bytes} {c : Session.Command}
    {o : Session.Outcome} {rounds : Nat} (hc : commandOf body = .ok c)
    (ho : ((x.session.send c).2.settle rounds).outcome? x.session.nextTicket = some o) :
    (x.handleAll rounds [body]).1 = [some (finish (responseId body) o)] := by
  rw [handleAll, submitAll, x.submit_of_ok hc]
  show (finishAll _ [_]).1 = _
  rw [finishAll_eq]
  exact congrArg (fun o => [o.map (finish (responseId body))]) ho

end Exchange

namespace Caller

variable {α : Type} [Json.Shaped α]

/-- What a caller gets of a call: the response to its request, read at the type of the result, once
the session has had rounds enough. -/
def Gets (caller : Caller) (x : Exchange Platform.Simulator) (c : Call) (result : Except Error α) :
    Prop :=
  ∃ n, ∀ rounds, n ≤ rounds → ∃ served response,
    (x.handleAll rounds [Json.bytesOf (caller.request c.method.name c.params)]).1 =
        [some ⟨served, some response⟩] ∧
      some response.id = (caller.request c.method.name c.params).id ∧
      Json.fromText (Json.bytesOf response) = .ok response ∧
      response.resultAs = result

variable {caller : Caller} {x : Exchange Platform.Simulator} {c : Call}

/-- A result arrives at its type. -/
theorem gets_ok {reply : Session.Reply} {y : α} (h : x.session.Gives c.command (.ok reply))
    (hresult : result reply = Json.toJson y) (hy : Legible (Json.maxDepth - 1) y)
    (hnull : Json.toJson y ≠ .null) : caller.Gets x c (.ok y : Except Error α) := by
  obtain ⟨n, hn⟩ := h
  obtain ⟨hcommand, hid⟩ := commandOf_request caller c
  refine ⟨n, fun rounds hrounds => ?_⟩
  refine ⟨true, .success (.natural (caller.latest + 1)) (Json.toJson y), ?_, rfl, ?_, ?_⟩
  · rw [x.handleAll_singleton hcommand (hn rounds hrounds), hid, finish_eq, resultOf, hresult]
    rfl
  · exact Json.fromText_bytesOf (legible_success (.natural _) hy.plain_toJson hnull)
  · simp only [Response.resultAs, Response.success, Option.getD_some, Json.fromJson?_toJson hy]

/-- A failure arrives as its error object. -/
theorem gets_error {e : Query.Error} (h : x.session.Gives c.command (.error e)) :
    caller.Gets x c (.error (.ofQuery e) : Except Error α) := by
  obtain ⟨n, hn⟩ := h
  obtain ⟨hcommand, hid⟩ := commandOf_request caller c
  refine ⟨n, fun rounds hrounds => ?_⟩
  refine ⟨false, .failure (.natural (caller.latest + 1)) (.ofQuery e), ?_, rfl, ?_, rfl⟩
  · rw [x.handleAll_singleton hcommand (hn rounds hrounds), hid, finish_eq, resultOf]
    rfl
  · exact Json.fromText_bytesOf (legible_failure (.natural _) rfl)

/-- A caller gets of each call what the session has for its command: the result as the record or
name that is made of it, or the error object of the failure. -/
structure Agrees (caller : Caller) (x : Exchange Platform.Simulator) : Prop where
  range : ∀ name first last, ∃ standings : Except Query.Error Query.Standings,
    x.session.Gives (.leaderboard name (.range first last)) (standings.map .leaderboard) ∧
      caller.Gets x (.range name first last)
        ((standings.map BoardRecord.ofResult).mapError Error.ofQuery)
  players : ∀ name users, ∃ standings : Except Query.Error Query.Standings,
    x.session.Gives (.leaderboard name (.users users)) (standings.map .leaderboard) ∧
      caller.Gets x (.players name users)
        ((standings.map BoardRecord.ofResult).mapError Error.ofQuery)
  personaName : ∀ user, ∃ name : Except Query.Error String,
    x.session.Gives (.personaName user) (name.map .personaName) ∧
      caller.Gets x (.personaName user) (name.mapError Error.ofQuery)

theorem gets_standings {standings : Except Query.Error Query.Standings}
    (h : x.session.Gives c.command (standings.map .leaderboard)) :
    caller.Gets x c ((standings.map BoardRecord.ofResult).mapError Error.ofQuery) := by
  cases standings with
  | ok r => exact gets_ok h rfl (legible_boardRecord _ _) nofun
  | error e => exact gets_error h

end Caller

/-- **Typed calls agree with the session.** Whatever has happened to the session before, a caller
that reads the response to its request at the type of the result gets what the session gives to
the command of the call, and the response is under the id of the request. -/
theorem typed_calls_agree (snapshot : Platform.Snapshot) (failures : List Platform.Outage)
    (scope : Query.Scope) :
    ∃ s : Session Platform.Simulator,
      Session.start { Platform.Simulator.new snapshot with failures } scope = .ok s ∧
        ∀ es, .stop ∉ es → ((Session.Loop.ofSession s).run es).stage = .accepting →
          ∀ (metrics : Counters) (caller : Caller),
            caller.Agrees ⟨((Session.Loop.ofSession s).run es).session, metrics⟩ := by
  obtain ⟨s, hs, h⟩ := Session.Loop.exists_start snapshot failures scope
  refine ⟨s, hs, fun es hes hstage metrics caller => ?_⟩
  have hgives := Session.Loop.gives_reply h rfl rfl hes hstage
  refine ⟨fun name first last => ⟨_, hgives _, ?_⟩, fun name users => ⟨_, hgives _, ?_⟩,
    fun user => ⟨.ok _, hgives (.personaName user), ?_⟩⟩
  · exact Caller.gets_standings (hgives (.leaderboard name (.range first last)))
  · exact Caller.gets_standings (hgives (.leaderboard name (.users users)))
  · exact Caller.gets_ok (hgives (.personaName user)) rfl (Json.legible_string _ _) nofun

end Rpc

end PlatformProxy
