import PlatformProxy.Proofs.Rpc.Arguments
import PlatformProxy.Proofs.Rpc.Service
import PlatformProxy.Proofs.Session.Ledger
import PlatformProxy.Rpc.Exchange

/-!
# What becomes of a message

A message goes through four checks before the session hears of it: it is JSON, it is a request, its
method is known, and its parameters are those of a command. Each check that fails has a code of its
own, so the code of a failure tells how far the message got. A message that fails a check changes
nothing. One that passes them all is a command, and the session gets this command and no other.

Checks and effects are kept apart here. `Rpc.commandOf` is what the checks come to, and does not
know of a session; what `Rpc.Exchange.submit` does to one depends on it alone.

## Main definitions

* `Rpc.IsJson`, `Rpc.IsRequest`, `Rpc.Request.IsKnown`, `Rpc.Request.AsksFor` — the four checks
* `Rpc.commandOf` — what they come to
* `Rpc.outcome` — how a message ends, given how the session answers
* `Rpc.Exchange.Classified` — all that is said of the end of a message and of its effects

## Main results

* `Rpc.checked` — the four checks decide what a message comes to
* `Rpc.Exchange.submitAll_eq`, `Rpc.Exchange.finishAll_eq` — what many messages do to the session
  and to the counters
* `Rpc.Exchange.every_message_is_classified` — what becomes of a message
-/

namespace PlatformProxy

namespace Rpc

/-! ### The checks -/

/-- A message is JSON. -/
def IsJson (body : Bytes) : Prop := ∃ v, Json.parse body = .ok v

/-- A message is a request: JSON of its form, and no array. -/
def IsRequest (body : Bytes) (r : Request) : Prop :=
  ∃ v, Json.parse body = .ok v ∧ (∀ items, v ≠ .array items) ∧ Json.fromJson? v = .ok r

namespace Request

/-- The method of a request is known. -/
def IsKnown (r : Request) : Prop := ∃ m : Method, m.name = r.method

/-- The parameters of a request are those of a command. -/
def AsksFor (r : Request) (command : Session.Command) : Prop :=
  ∃ m : Method, m.name = r.method ∧ StandsFor m r.params command

end Request

/-- The command in a message, or why there is none. -/
def commandOf (body : Bytes) : Except Error Session.Command :=
  (requestOf body).bind fun r => call r.method r.params

/-- How a message gets past the checks, or fails one of them. -/
inductive Checked (body : Bytes) : Except Error Session.Command → Prop
  | notJson {e : Error} (hcode : e.code = Error.parseErrorCode) (h : ¬ IsJson body) :
      Checked body (.error e)
  | notRequest {e : Error} (hcode : e.code = Error.invalidRequestCode) (hjson : IsJson body)
      (h : ∀ r, ¬ IsRequest body r) : Checked body (.error e)
  | unknown {e : Error} {r : Request} (hcode : e.code = Error.methodNotFoundCode)
      (hrequest : IsRequest body r) (h : ¬ r.IsKnown) : Checked body (.error e)
  | invalid {e : Error} {r : Request} (hcode : e.code = Error.invalidParamsCode)
      (hrequest : IsRequest body r) (hknown : r.IsKnown) (h : ∀ c, ¬ r.AsksFor c) :
      Checked body (.error e)
  | command {r : Request} {c : Session.Command} (hrequest : IsRequest body r)
      (h : r.AsksFor c) : Checked body (.ok c)

theorem IsRequest.isJson {body : Bytes} {r : Request} (h : IsRequest body r) : IsJson body := by
  obtain ⟨v, hv, -⟩ := h
  exact ⟨v, hv⟩

/-- A message is one request at most. -/
theorem IsRequest.unique {body : Bytes} {r r' : Request} (h : IsRequest body r)
    (h' : IsRequest body r') : r = r' := by
  obtain ⟨v, hv, -, hr⟩ := h
  obtain ⟨v', hv', -, hr'⟩ := h'
  obtain rfl := Except.ok.inj (hv.symm.trans hv')
  exact Except.ok.inj (hr.symm.trans hr')

/-- What is no array is read as a request. -/
theorem requestOf_of_value {body : Bytes} {v : Json} (hparse : Json.parse body = .ok v)
    (hno : ∀ items, v ≠ .array items) :
    requestOf body = (Json.fromJson? v).mapError fun m => .invalidRequest m.message := by
  rw [requestOf, hparse]
  cases v with
  | array items => exact absurd rfl (hno items)
  | _ => rfl

theorem requestOf_cases (body : Bytes) :
    (¬ IsJson body ∧ ∃ e, requestOf body = .error e ∧ e.code = Error.parseErrorCode) ∨
      (IsJson body ∧ (∀ r, ¬ IsRequest body r) ∧
        ∃ e, requestOf body = .error e ∧ e.code = Error.invalidRequestCode) ∨
      ∃ r, IsRequest body r ∧ requestOf body = .ok r := by
  cases hparse : Json.parse body with
  | error f =>
    refine .inl ⟨?_, .parseError (f.message body), by rw [requestOf, hparse], rfl⟩
    rintro ⟨v, hv⟩
    cases hparse.symm.trans hv
  | ok v =>
    refine .inr ?_
    by_cases harray : ∃ items, v = .array items
    · obtain ⟨items, rfl⟩ := harray
      refine .inl ⟨⟨_, hparse⟩, ?_, _, by rw [requestOf, hparse], rfl⟩
      rintro r ⟨v, hv, hno, -⟩
      exact hno items (Except.ok.inj (hv.symm.trans hparse))
    · have hno : ∀ items, v ≠ .array items := fun items hv => harray ⟨items, hv⟩
      rw [requestOf_of_value hparse hno]
      cases hread : (Json.fromJson? v : Except Json.Mismatch Request) with
      | error m =>
        refine .inl ⟨⟨v, hparse⟩, ?_, _, rfl, rfl⟩
        rintro r ⟨w, hw, -, hr⟩
        obtain rfl := Except.ok.inj (hw.symm.trans hparse)
        cases hread.symm.trans hr
      | ok r => exact .inr ⟨r, ⟨v, hparse, hno, hread⟩, rfl⟩

theorem requestOf_eq_ok_iff {body : Bytes} {r : Request} :
    requestOf body = .ok r ↔ IsRequest body r := by
  constructor
  · intro h
    obtain ⟨-, e, he, -⟩ | ⟨-, -, e, he, -⟩ | ⟨r', hr', hok⟩ := requestOf_cases body
    · exact absurd (h.symm.trans he) nofun
    · exact absurd (h.symm.trans he) nofun
    · rwa [Except.ok.inj (h.symm.trans hok)]
  · rintro ⟨v, hparse, hno, hread⟩
    rw [requestOf_of_value hparse hno, hread]
    rfl

/-- A request asks for the command that its call has. -/
theorem decides_asksFor {r : Request} (h : r.IsKnown) :
    Decides r.AsksFor (call r.method r.params) := by
  obtain ⟨m, hm⟩ := h
  rw [← hm]
  refine (decides_call m r.params).congr fun command => ⟨fun hstands => ⟨m, hm, hstands⟩, ?_⟩
  rintro ⟨m', hm', hstands⟩
  rwa [← Method.name_injective (hm'.trans hm.symm)]

theorem Request.AsksFor.isKnown {r : Request} {c : Session.Command} (h : r.AsksFor c) :
    r.IsKnown := by
  obtain ⟨m, hm, -⟩ := h
  exact ⟨m, hm⟩

/-- A request asks for one command at most. -/
theorem Request.AsksFor.unique {r : Request} {c c' : Session.Command} (h : r.AsksFor c)
    (h' : r.AsksFor c') : c = c' := by
  have hcall := decides_asksFor h.isKnown
  exact Except.ok.inj (((hcall.ok c).mpr h).symm.trans ((hcall.ok c').mpr h'))

/-- **The four checks decide what a message comes to.** -/
theorem checked (body : Bytes) : Checked body (commandOf body) := by
  rw [commandOf]
  obtain ⟨hjson, e, hrequest, hcode⟩ | ⟨hjson, hno, e, hrequest, hcode⟩ | ⟨r, hr, hrequest⟩ :=
    requestOf_cases body
  · rw [hrequest]
    exact .notJson hcode hjson
  · rw [hrequest]
    exact .notRequest hcode hjson hno
  · rw [hrequest, Except.bind]
    by_cases hknown : r.IsKnown
    · have hcall := decides_asksFor hknown
      cases hresult : call r.method r.params with
      | error e =>
        rw [hresult] at hcall
        exact .invalid (hcall.code e rfl) hr hknown fun c hc => absurd ((hcall.ok c).mpr hc) nofun
      | ok c =>
        rw [hresult] at hcall
        exact .command hr ((hcall.ok c).mp rfl)
    · rw [call_of_unknown fun m hm => hknown ⟨m, hm⟩]
      exact .unknown rfl hr hknown

/-- A parameter by position. -/
example :
    commandOf (Utf8.ofString "\x7b\"method\":\"GetPersonaName\",\"params\":[7]\x7d") =
      .ok (.personaName 7) := by
  decide +kernel

/-! ### Codes -/

/-- Something fails with a code. -/
def Fails {α : Type} (result : Except Error α) (code : Int64) : Prop :=
  ∃ e, result = .error e ∧ e.code = code

theorem fails_error_iff {α : Type} {e : Error} {code : Int64} :
    Fails (.error e : Except Error α) code ↔ e.code = code := by
  constructor
  · rintro ⟨e', he, hcode⟩
    exact Except.error.inj he ▸ hcode
  · exact fun hcode => ⟨e, rfl, hcode⟩

theorem not_fails_error {α : Type} {e : Error} {code code' : Int64} (h : e.code = code')
    (hne : code' ≠ code) : ¬ Fails (.error e : Except Error α) code := by
  intro hfails
  exact hne (h.symm.trans (fails_error_iff.mp hfails))

namespace Checked

variable {body : Bytes} {result : Except Error Session.Command} (h : Checked body result)
include h

theorem fails_parseError_iff : Fails result Error.parseErrorCode ↔ ¬ IsJson body := by
  cases h with
  | notJson hcode hno => exact iff_of_true (fails_error_iff.mpr hcode) hno
  | notRequest hcode hjson =>
    exact iff_of_false (not_fails_error hcode (by decide)) (not_not_intro hjson)
  | unknown hcode hr =>
    exact iff_of_false (not_fails_error hcode (by decide)) (not_not_intro hr.isJson)
  | invalid hcode hr =>
    exact iff_of_false (not_fails_error hcode (by decide)) (not_not_intro hr.isJson)
  | command hr => exact iff_of_false nofun (not_not_intro hr.isJson)

theorem fails_invalidRequest_iff :
    Fails result Error.invalidRequestCode ↔ IsJson body ∧ ∀ r, ¬ IsRequest body r := by
  cases h with
  | notJson hcode hno =>
    exact iff_of_false (not_fails_error hcode (by decide)) fun hjson => hno hjson.1
  | notRequest hcode hjson hno => exact iff_of_true (fails_error_iff.mpr hcode) ⟨hjson, hno⟩
  | unknown hcode hr =>
    exact iff_of_false (not_fails_error hcode (by decide)) fun hno => hno.2 _ hr
  | invalid hcode hr =>
    exact iff_of_false (not_fails_error hcode (by decide)) fun hno => hno.2 _ hr
  | command hr => exact iff_of_false nofun fun hno => hno.2 _ hr

theorem fails_methodNotFound_iff :
    Fails result Error.methodNotFoundCode ↔ ∃ r, IsRequest body r ∧ ¬ r.IsKnown := by
  cases h with
  | notJson hcode hno =>
    exact iff_of_false (not_fails_error hcode (by decide)) fun ⟨_, hr, _⟩ => hno hr.isJson
  | notRequest hcode _ hno =>
    exact iff_of_false (not_fails_error hcode (by decide)) fun ⟨r, hr, _⟩ => hno r hr
  | unknown hcode hr hno => exact iff_of_true (fails_error_iff.mpr hcode) ⟨_, hr, hno⟩
  | invalid hcode hr hknown =>
    refine iff_of_false (not_fails_error hcode (by decide)) ?_
    rintro ⟨r, hr', hno⟩
    exact hno (hr'.unique hr ▸ hknown)
  | command hr hasks =>
    refine iff_of_false nofun ?_
    rintro ⟨r, hr', hno⟩
    exact hno (hr'.unique hr ▸ hasks.isKnown)

theorem fails_invalidParams_iff :
    Fails result Error.invalidParamsCode ↔
      ∃ r, IsRequest body r ∧ r.IsKnown ∧ ∀ c, ¬ r.AsksFor c := by
  cases h with
  | notJson hcode hno =>
    exact iff_of_false (not_fails_error hcode (by decide)) fun ⟨_, hr, _⟩ => hno hr.isJson
  | notRequest hcode _ hno =>
    exact iff_of_false (not_fails_error hcode (by decide)) fun ⟨r, hr, _⟩ => hno r hr
  | unknown hcode hr hno =>
    refine iff_of_false (not_fails_error hcode (by decide)) ?_
    rintro ⟨r, hr', hknown, -⟩
    exact hno (hr'.unique hr ▸ hknown)
  | invalid hcode hr hknown hno =>
    exact iff_of_true (fails_error_iff.mpr hcode) ⟨_, hr, hknown, hno⟩
  | @command _ c hr hasks =>
    refine iff_of_false nofun ?_
    rintro ⟨r, hr', -, hno⟩
    exact hno c (hr'.unique hr ▸ hasks)

/-- A command is what the request asks for. -/
theorem eq_ok_iff {c : Session.Command} :
    result = .ok c ↔ ∃ r, IsRequest body r ∧ r.AsksFor c := by
  cases h with
  | notJson _ hno => exact iff_of_false nofun fun ⟨_, hr, _⟩ => hno hr.isJson
  | notRequest _ _ hno => exact iff_of_false nofun fun ⟨r, hr, _⟩ => hno r hr
  | unknown _ hr hno =>
    refine iff_of_false nofun ?_
    rintro ⟨r, hr', hasks⟩
    exact hno (hr'.unique hr ▸ hasks.isKnown)
  | invalid _ hr _ hno =>
    refine iff_of_false nofun ?_
    rintro ⟨r, hr', hasks⟩
    exact hno c (hr'.unique hr ▸ hasks)
  | @command r c' hr hasks =>
    constructor
    · intro hc
      exact ⟨r, hr, Except.ok.inj hc ▸ hasks⟩
    · rintro ⟨r', hr', hasks'⟩
      obtain rfl := hr'.unique hr
      exact congrArg _ (hasks.unique hasks')

end Checked

/-! ### The end of a message -/

/-- The id of a response. It is null for what is no request, and absent for a notification. -/
def responseId (body : Bytes) : Option Json :=
  match requestOf body with
  | .error _ => some .null
  | .ok r => r.id

theorem responseId_of_isRequest {body : Bytes} {r : Request} (h : IsRequest body r) :
    responseId body = r.id := by
  rw [responseId, requestOf_eq_ok_iff.mpr h]

/-- What the caller gets of the outcome of a command. -/
def resultOf : Session.Outcome → Except Error Json
  | .ok reply => .ok (result reply)
  | .error e => .error (.ofQuery e)

/-- How a message ends, given how the session answers. -/
def outcome (answers : Session.Command → Session.Outcome) (body : Bytes) : Except Error Json :=
  (commandOf body).bind fun c => resultOf (answers c)

theorem receive_eq_of_commandOf (body : Bytes) :
    receive body = match commandOf body with
      | .error e => .done (.ofResult (responseId body) (.error e))
      | .ok c => .submitted (responseId body) c := by
  rw [receive_eq, commandOf, responseId]
  cases requestOf body with
  | error e => rfl
  | ok r =>
    show submit r = match call r.method r.params with
      | .error e => .done (.ofResult r.id (.error e))
      | .ok c => .submitted r.id c
    cases hcall : call r.method r.params with
    | error e => rw [submit, hcall]
    | ok c => rw [submit, hcall]

theorem finish_eq (id : Option Json) (o : Session.Outcome) :
    finish id o = .ofResult id (resultOf o) := by
  cases o <;> rfl

theorem handle_eq (answers : Session.Command → Session.Outcome) (body : Bytes) :
    handle answers body = .ofResult (responseId body) (outcome answers body) := by
  rw [handle, receive_eq_of_commandOf, outcome]
  cases commandOf body with
  | error e => rfl
  | ok c => exact finish_eq _ _

/-- Failures of queries have codes of their own. -/
theorem code_ofQuery (e : Query.Error) :
    (Error.ofQuery e).code = match e with
      | .callFailed => -32000
      | .unreadable _ => -32001
      | .closed => -32002
      | .wrongCompletion _ _ => -32603 := by
  cases e <;> rfl

theorem fails_outcome_iff (answers : Session.Command → Session.Outcome) (body : Bytes)
    {code : Int64} (h : code ∉ ([-32000, -32001, -32002, -32603] : List Int64)) :
    Fails (outcome answers body) code ↔ Fails (commandOf body) code := by
  rw [outcome]
  cases commandOf body with
  | error e =>
    constructor
    · rintro ⟨e', he, hcode⟩
      exact ⟨e, rfl, (Except.error.inj he) ▸ hcode⟩
    · rintro ⟨e', he, hcode⟩
      exact ⟨e, rfl, (Except.error.inj he) ▸ hcode⟩
  | ok c =>
    refine ⟨?_, nofun⟩
    rintro ⟨e, he, rfl⟩
    rw [Except.bind] at he
    cases hanswer : answers c with
    | ok reply =>
      rw [hanswer] at he
      exact absurd he nofun
    | error e' =>
      rw [hanswer] at he
      obtain rfl := Except.error.inj he
      refine absurd ?_ h
      rw [code_ofQuery]
      cases e' <;> simp

namespace Exchange

variable {σ : Type} (x : Exchange σ)

/-! ### Effects -/

theorem submit_of_error {body : Bytes} {e : Error} (h : commandOf body = .error e) :
    x.submit body = (.done (.ofResult (responseId body) (.error e)), x) := by
  rw [submit, receive_eq_of_commandOf, h]

theorem submit_of_ok {body : Bytes} {c : Session.Command} (h : commandOf body = .ok c) :
    x.submit body =
      (.command (responseId body) x.session.nextTicket,
        { x with session := (x.session.send c).2 }) := by
  rw [submit, receive_eq_of_commandOf, h]
  rfl

/-- **The session gets the commands of messages, in their order**, and nothing else. -/
theorem submitAll_eq (bodies : List Bytes) :
    (x.submitAll bodies).2 =
      { x with
        session := (bodies.filterMap fun body => (commandOf body).toOption).foldl
          (fun s c => (s.send c).2) x.session } := by
  induction bodies generalizing x with
  | nil => rfl
  | cons body bodies ih =>
    rw [submitAll]
    dsimp only
    rw [ih]
    cases h : commandOf body with
    | error e => rw [x.submit_of_error h, List.filterMap_cons_none (by rw [h]; rfl)]
    | ok c =>
      rw [x.submit_of_ok h, List.filterMap_cons_some (by rw [h]; rfl)]
      rfl

/-- **Every answer counts once.** -/
theorem finishAll_eq (waiting : List Waiting) :
    x.finishAll waiting =
      (waiting.map x.answer?,
        { x with
          metrics := (waiting.filterMap x.answer?).foldl (fun m a => a.count m) x.metrics }) := by
  induction waiting generalizing x with
  | nil => rfl
  | cons w waiting ih =>
    have hsame : ∀ metrics, Exchange.answer? { x with metrics } = x.answer? := fun metrics =>
      funext fun w => by cases w <;> rfl
    rw [finishAll]
    cases h : x.answer? w with
    | none =>
      show (none :: (x.finishAll waiting).1, (x.finishAll waiting).2) = _
      rw [ih, List.filterMap_cons_none h, List.map_cons, h]
    | some a =>
      show (some a :: (finishAll { x with metrics := a.count x.metrics } waiting).1,
        (finishAll { x with metrics := a.count x.metrics } waiting).2) = _
      rw [ih, hsame (a.count x.metrics), List.filterMap_cons_some h, List.map_cons, h,
        List.foldl_cons]

theorem answer?_submit {body : Bytes} {y : Exchange σ}
    {answers : Session.Command → Session.Outcome}
    (h : ∀ c, commandOf body = .ok c →
      y.session.outcome? x.session.nextTicket = some (answers c)) :
    y.answer? (x.submit body).1 = some (.ofResult (responseId body) (outcome answers body)) := by
  rw [outcome]
  cases hcommand : commandOf body with
  | error e =>
    rw [x.submit_of_error hcommand]
    rfl
  | ok c =>
    rw [x.submit_of_ok hcommand, answer?, h c hcommand]
    exact congrArg some (finish_eq _ _)

section Client

variable [Platform.Client σ]

/-- The same session and counters after a shutdown. -/
def shutdown (x : Exchange σ) : Exchange σ := { x with session := x.session.shutdown }

/-- A command that has been sent has its outcome after a shutdown. -/
theorem exists_outcome_of_send (h : x.session.Ledger) (c : Session.Command) :
    ∃ o, (x.session.send c).2.shutdown.outcome? x.session.nextTicket = some o := by
  have hfiled : ∃ o, (x.session.nextTicket, o) ∈ (x.session.send c).2.shutdown.outcomes := by
    cases hrunning : x.session.isRunning with
    | true =>
      refine (h.send c).exists_outcome_shutdown ?_ ?_
      · rw [Session.send_of_isRunning hrunning]
        exact hrunning
      · rw [Session.nextTicket_send]
        exact Nat.lt_succ_self _
    | false =>
      have hstopped : (x.session.send c).2.isRunning ≠ true := by
        rw [Session.send_of_not_isRunning hrunning]
        exact ne_of_eq_of_ne hrunning Bool.false_ne_true
      rw [Session.shutdown, if_neg hstopped, Session.send_of_not_isRunning hrunning]
      exact ⟨_, List.mem_append_right _ List.mem_cons_self⟩
  obtain ⟨o, ho⟩ := hfiled
  have hfound : ((x.session.send c).2.shutdown.outcomes.find?
      fun o => o.1 = x.session.nextTicket).isSome = true :=
    List.find?_isSome.mpr ⟨_, ho, decide_eq_true rfl⟩
  obtain ⟨found, hfound⟩ := Option.isSome_iff_exists.mp hfound
  exact ⟨found.2, by rw [Session.outcome?, hfound, Option.map_some]⟩

/-! ### What becomes of a message -/

/-- What is said of the end of a message and of its effects. Whether the end is sent is another
matter: for a notification, it is not. -/
structure Classified (x : Exchange σ) (body : Bytes) : Prop where
  parseError : ∀ answers, Fails (outcome answers body) (-32700) ↔ ¬ IsJson body
  invalidRequest : ∀ answers,
    Fails (outcome answers body) (-32600) ↔ IsJson body ∧ ∀ r, ¬ IsRequest body r
  methodNotFound : ∀ answers,
    Fails (outcome answers body) (-32601) ↔ ∃ r, IsRequest body r ∧ ¬ r.IsKnown
  invalidParams : ∀ answers, Fails (outcome answers body) (-32602) ↔
    ∃ r, IsRequest body r ∧ r.IsKnown ∧ ∀ c, ¬ r.AsksFor c
  /-- A message that fails a check is at its end at once, and nothing else happens. -/
  rejected : (∀ r c, IsRequest body r → ¬ r.AsksFor c) →
    ∃ e, (∀ answers, outcome answers body = .error e) ∧
      x.submit body = (.done (.ofResult (responseId body) (.error e)), x)
  /-- One that passes them all is sent to the session as the command it asks for. The client is
  not called before the session is. -/
  submitted : ∀ r c, IsRequest body r → r.AsksFor c →
    x.submit body =
      (.command r.id x.session.nextTicket, { x with session := (x.session.send c).2 }) ∧
    (x.session.send c).2.client = x.session.client
  /-- And ends as the session answers. -/
  answered : ∀ r c, IsRequest body r → r.AsksFor c → ∀ answers,
    (∀ reply, answers c = .ok reply → outcome answers body = .ok (result reply)) ∧
    ∀ e, answers c = .error e → outcome answers body = .error (.ofQuery e) ∧
      (Error.ofQuery e).code = match e with
        | .callFailed => -32000
        | .unreadable _ => -32001
        | .closed => -32002
        | .wrongCompletion _ _ => -32603
  /-- Whatever has happened in between, the end is counted once. -/
  counted : ∀ (y : Exchange σ) (answers : Session.Command → Session.Outcome),
    (∀ r c, IsRequest body r → r.AsksFor c →
      y.session.outcome? x.session.nextTicket = some (answers c)) →
    y.finishAll [(x.submit body).1] =
      ([some (.ofResult (responseId body) (outcome answers body))],
        { y with
          metrics := match outcome answers body with
            | .ok _ => { y.metrics with served := y.metrics.served + 1 }
            | .error _ => { y.metrics with failed := y.metrics.failed + 1 } })
  /-- The end comes when the session is shut down, if not before. -/
  ends : x.session.Ledger →
    ∃ answer, (x.submit body).2.shutdown.answer? (x.submit body).1 = some answer

/-- **What becomes of a message.** Its code tells the first check that it fails, and if it fails
none, how the session answers. Nothing reaches the session or its client unless all checks are
passed, and then it is one command with the parameters that were given. Every message comes to its
end, and is counted once, as served if it has a result and as failed if it has none. -/
theorem every_message_is_classified (x : Exchange σ) (body : Bytes) : x.Classified body := by
  have hchecked := checked body
  have hcommand : ∀ {r c}, IsRequest body r → r.AsksFor c → commandOf body = .ok c :=
    fun hr hasks => hchecked.eq_ok_iff.mpr ⟨_, hr, hasks⟩
  refine ⟨fun answers => ?_, fun answers => ?_, fun answers => ?_, fun answers => ?_, ?_, ?_, ?_,
    ?_, ?_⟩
  · exact (fails_outcome_iff answers body (by decide)).trans hchecked.fails_parseError_iff
  · exact (fails_outcome_iff answers body (by decide)).trans hchecked.fails_invalidRequest_iff
  · exact (fails_outcome_iff answers body (by decide)).trans hchecked.fails_methodNotFound_iff
  · exact (fails_outcome_iff answers body (by decide)).trans hchecked.fails_invalidParams_iff
  · intro hno
    cases hresult : commandOf body with
    | error e => exact ⟨e, fun answers => by rw [outcome, hresult]; rfl, x.submit_of_error hresult⟩
    | ok c =>
      obtain ⟨r, hr, hasks⟩ := hchecked.eq_ok_iff.mp hresult
      exact absurd hasks (hno r c hr)
  · intro r c hr hasks
    refine ⟨?_, Session.client_send _ _⟩
    rw [x.submit_of_ok (hcommand hr hasks), responseId_of_isRequest hr]
  · intro r c hr hasks answers
    rw [outcome, hcommand hr hasks]
    refine ⟨fun reply hreply => ?_, fun e he => ⟨?_, code_ofQuery e⟩⟩
    · rw [Except.bind, hreply, resultOf]
    · rw [Except.bind, he, resultOf]
  · intro y answers h
    have hfiled : ∀ c, commandOf body = .ok c →
        y.session.outcome? x.session.nextTicket = some (answers c) := by
      intro c hc
      obtain ⟨r, hr, hasks⟩ := hchecked.eq_ok_iff.mp hc
      exact h r c hr hasks
    have hanswer := x.answer?_submit hfiled
    rw [finishAll_eq, List.map_singleton, hanswer, List.filterMap_cons_some hanswer]
    cases outcome answers body <;> rfl
  · intro hledger
    cases hresult : commandOf body with
    | error e =>
      rw [x.submit_of_error hresult]
      exact ⟨_, rfl⟩
    | ok c =>
      obtain ⟨o, ho⟩ := x.exists_outcome_of_send hledger c
      rw [x.submit_of_ok hresult]
      exact ⟨_, congrArg (Option.map _) ho⟩

end Client

end Exchange

end Rpc

end PlatformProxy
