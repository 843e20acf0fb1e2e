import PlatformProxy.Proofs.Keyed
import PlatformProxy.Proofs.Rpc.Connection
import PlatformProxy.Proofs.Rpc.Service

/-!
# One response for each request

A connection is served by events that come in any order: bytes arrive, the peer has sent
everything, the next message is looked for, and a message that is in flight is finished. How the
session answers the command of a message is left open. It may depend on everything that happens,
so a session need not be part of the state.

Next to the connection a run keeps what has come over it and the messages taken off it. They are
what a connection is measured by: the messages are those that a receiver takes off all the input at
once, and what is written are whole frames, each the response to another one of the messages.

## Main definitions

* `Rpc.Serving`, `Rpc.Serving.step`, `Rpc.Serving.run` — a connection that is served
* `Rpc.Serving.Reads`, `Rpc.Serving.Writes` — what holds of the messages taken and of the responses
  written

## Main results

* `Rpc.Serving.Reads.step`, `Rpc.Serving.Writes.step` — every event keeps both
* `Rpc.Serving.one_response_per_request` — what they say of a whole run
-/

namespace PlatformProxy

namespace Rpc

open PlatformProxy.Frame (Receiver)

/-- A connection that is served, with what has come over it so far and the messages taken off it in
the order of their numbers. -/
structure Serving where
  connection : Connection
  input : Bytes
  messages : List Bytes
  /-- No more bytes will come. -/
  ended : Bool

namespace Serving

/-- What can happen to a connection. -/
inductive Event
  | arrive (chunk : Bytes)
  | peerDone
  /-- The next message is looked for. -/
  | look
  /-- A message is finished. -/
  | finish (message : Nat)
  deriving DecidableEq, Repr

/-- Nothing has happened yet. -/
def new (limit : Nat) : Serving := ⟨.new limit, [], [], false⟩

/-- How the session answers the command of each message, which may depend on all that happens. -/
abbrev Answers : Type := Nat → Session.Command → Session.Outcome

/-- One event. After the end nothing arrives. -/
def step (answers : Answers) (s : Serving) : Event → Serving
  | .arrive chunk =>
    if s.ended then s
    else { s with connection := s.connection.arrive chunk, input := s.input ++ chunk }
  | .peerDone => { s with ended := true }
  | .look =>
    let (found, connection) := s.connection.look s.ended
    { s with connection, messages := s.messages ++ (found.map Prod.snd).toList }
  | .finish i =>
    match s.messages[i]? with
    | none => s
    | some body => { s with connection := s.connection.answer i (handle (answers i) body).response }

def run (answers : Answers) (s : Serving) (es : List Event) : Serving := es.foldl (step answers) s

/-! ### The messages -/

/-- The messages are those that a receiver takes off the whole input. As long as the connection
reads, it goes on as that receiver would. Once it does not because the peer is done, nothing is
left. -/
structure Reads (limit : Nat) (s : Serving) : Prop where
  sameLimit : s.connection.receiver.limit = limit
  count : s.connection.nextRequest = s.messages.length
  taken : ∃ r, ((Receiver.new limit).feed s.input).Takes s.messages r ∧
    (s.connection.phase = .reading → r.Agrees s.connection.receiver) ∧
    (s.connection.phase = .draining ∨ s.connection.phase = .closed →
      s.ended = true ∧ ∃ r', r.decode = (.ok none, r') ∧ r'.buffer = [])

/-- What has been written are whole frames, and each is the response to a message of its own. A
message that is to be answered and has not been is in flight, unless the connection failed. -/
structure Writes (limit : Nat) (answers : Answers) (es : List Event) (s : Serving)
    (answered : List (Nat × Response)) : Prop where
  written : s.connection.written = answered.flatMap fun a => a.2.frame
  short : ∀ a ∈ answered, (Json.bytesOf a.2).length ≤ limit
  distinct : (s.connection.inFlight ++ answered.map Prod.fst).Nodup
  drawn : ∀ i ∈ s.connection.inFlight ++ answered.map Prod.fst, i < s.messages.length
  responses : ∀ a ∈ answered, Event.finish a.1 ∈ es ∧ ∃ body, s.messages[a.1]? = some body ∧
    (handle (answers a.1) body).response = some a.2
  accounted : (∀ e, s.connection.phase ≠ .failed e) → ∀ i body, s.messages[i]? = some body →
    isNotification body = false → i ∈ s.connection.inFlight ++ answered.map Prod.fst
  closed : s.connection.phase = .closed → s.connection.inFlight = []

/-! ### Every event keeps the messages right -/

namespace Reads

variable {limit : Nat} {s : Serving}

theorem not_over_of_reading {phase : Phase} (h : phase = .reading) :
    ¬ (phase = .draining ∨ phase = .closed) := by
  rintro (hdraining | hclosed)
  · exact absurd (h.symm.trans hdraining) nofun
  · exact absurd (h.symm.trans hclosed) nofun

theorem of_settle {c : Connection} (h : Reads limit { s with connection := c }) :
    Reads limit { s with connection := c.settle } := by
  obtain hsame | ⟨hphase, -, hclosed⟩ := c.settle_cases
  · rwa [hsame]
  · obtain ⟨r, htakes, -, hdone⟩ := h.taken
    rw [hclosed]
    exact ⟨h.sameLimit, h.count, r, htakes, nofun, fun _ => hdone (.inl hphase)⟩

theorem arrive (h : s.Reads limit) (answers : Answers) (chunk : Bytes) :
    (s.step answers (.arrive chunk)).Reads limit := by
  obtain ⟨r, htakes, hagrees, hdone⟩ := h.taken
  rw [step]
  split
  · exact h
  · rename_i hended
    have hfed : ((Receiver.new limit).feed (s.input ++ chunk)).Takes s.messages (r.feed chunk) := by
      rw [← Receiver.feed_feed]
      exact htakes.feed chunk
    rw [Connection.arrive]
    split <;> rename_i hphase
    · exact ⟨h.sameLimit, h.count, r.feed chunk, hfed, fun _ => (hagrees hphase).feed chunk,
        fun hover => absurd hover (not_over_of_reading hphase)⟩
    · exact ⟨h.sameLimit, h.count, r.feed chunk, hfed, fun hreading => absurd hreading hphase,
        fun hover => absurd (hdone hover).1 hended⟩

theorem look (h : s.Reads limit) {found : Option (Nat × Bytes)} {c : Connection}
    (hlook : s.connection.Looks s.ended found c) :
    Reads limit
      { s with connection := c, messages := s.messages ++ (found.map Prod.snd).toList } := by
  obtain ⟨connection, input, messages, ended⟩ := s
  obtain ⟨hlimit, hcount, r, htakes, hagrees, hdone⟩ := h
  dsimp only at hlimit hcount htakes hagrees hdone hlook
  cases found with
  | some message =>
    cases hlook with
    | @found _ r' body hphase hdecode =>
      refine ⟨(Receiver.limit_of_decode hdecode).trans hlimit, ?_, r', ?_, ?_, ?_⟩
      · rw [Option.map_some, Option.toList_some, List.length_append, ← hcount]
        rfl
      · exact htakes.snoc ((hagrees hphase).decode.trans hdecode)
      · intro _
        exact Receiver.Agrees.refl r'
      · exact fun hover => absurd hover (not_over_of_reading hphase)
  | none =>
    rw [Option.map_none, Option.toList_none, List.append_nil]
    cases hlook with
    | idle hphase => exact ⟨hlimit, hcount, r, htakes, hagrees, hdone⟩
    | waits hphase hdecode =>
      exact ⟨(Receiver.limit_of_decode hdecode).trans hlimit, hcount, r, htakes,
        fun _ => (hagrees hphase).of_none hdecode,
        fun hover => absurd hover (not_over_of_reading hphase)⟩
    | drains hphase hdecode hempty =>
      have hdecode' := (hagrees hphase).decode.trans hdecode
      exact of_settle ⟨(Receiver.limit_of_decode hdecode).trans hlimit, hcount, r, htakes, nofun,
        fun _ => ⟨rfl, _, hdecode', hempty⟩⟩
    | fails hphase hlimit' e =>
      exact ⟨hlimit'.trans hlimit, hcount, r, htakes, nofun, nofun⟩

theorem finish (h : s.Reads limit) {i : Nat} {response : Option Response} {c : Connection}
    (hfinish : s.connection.Finishes i response c) : Reads limit { s with connection := c } := by
  obtain ⟨hlimit, hcount, r, htakes, hagrees, hdone⟩ := h
  cases hfinish with
  | idle => exact ⟨hlimit, hcount, r, htakes, hagrees, hdone⟩
  | silent hi => exact of_settle ⟨hlimit, hcount, r, htakes, hagrees, hdone⟩
  | written hi hlength => exact of_settle ⟨hlimit, hcount, r, htakes, hagrees, hdone⟩
  | tooLong hi e => exact ⟨hlimit, hcount, r, htakes, nofun, nofun⟩

/-- **Every event keeps the messages those of the input.** -/
theorem step (h : s.Reads limit) (answers : Answers) (e : Event) :
    (s.step answers e).Reads limit := by
  cases e with
  | arrive chunk => exact h.arrive answers chunk
  | peerDone =>
    obtain ⟨r, htakes, hagrees, hdone⟩ := h.taken
    exact ⟨h.sameLimit, h.count, r, htakes, hagrees, fun hover => ⟨rfl, (hdone hover).2⟩⟩
  | look => exact h.look (s.connection.looks s.ended)
  | finish i =>
    rw [Serving.step]
    split
    · exact h
    · exact h.finish (s.connection.finishes i _)

end Reads

/-! ### Every event keeps the responses right -/

namespace Writes

variable {limit : Nat} {answers : Answers} {es : List Event} {s : Serving}
  {answered : List (Nat × Response)}

theorem of_settle {c : Connection}
    (h : Writes limit answers es { s with connection := c } answered) :
    Writes limit answers es { s with connection := c.settle } answered := by
  obtain hsame | ⟨hphase, hnone, hclosed⟩ := c.settle_cases
  · rwa [hsame]
  · rw [hclosed]
    refine { h with accounted := fun _ => h.accounted ?_, closed := fun _ => hnone }
    dsimp only
    rw [hphase]
    nofun

theorem mono (h : s.Writes limit answers es answered) (e : Event) :
    s.Writes limit answers (es ++ [e]) answered :=
  { h with
    responses := fun a ha =>
      ⟨List.mem_append_left _ (h.responses a ha).1, (h.responses a ha).2⟩ }

/-- A message is taken: its number is new, and is now in flight. -/
theorem found (h : s.Writes limit answers es answered) (hphase : s.connection.phase = .reading)
    (r : Receiver) (body : Bytes) :
    Writes limit answers es
      { s with
        connection :=
          { s.connection with
            receiver := r
            nextRequest := s.messages.length + 1
            inFlight := s.connection.inFlight ++ [s.messages.length] }
        messages := s.messages ++ [body] } answered := by
  have hfresh : s.messages.length ∉ s.connection.inFlight ++ answered.map Prod.fst := by
    intro hmem
    exact Nat.lt_irrefl _ (h.drawn _ hmem)
  have hperm : (s.connection.inFlight ++ [s.messages.length] ++ answered.map Prod.fst).Perm
      (s.messages.length :: (s.connection.inFlight ++ answered.map Prod.fst)) := by
    rw [List.append_assoc]
    exact List.perm_middle
  refine ⟨h.written, h.short, ?_, ?_, ?_, ?_, ?_⟩
  · exact hperm.nodup_iff.mpr (List.nodup_cons.mpr ⟨hfresh, h.distinct⟩)
  · intro i hi
    dsimp only
    rw [List.length_append]
    rcases List.mem_cons.mp (hperm.mem_iff.mp hi) with rfl | hi
    · exact Nat.lt_succ_self _
    · exact Nat.lt_succ_of_lt (h.drawn i hi)
  · intro a ha
    obtain ⟨hevent, body', hbody', hresponse⟩ := h.responses a ha
    exact ⟨hevent, body', Keyed.getElem?_append_of_eq_some hbody' _, hresponse⟩
  · intro hopen i body' hbody' hanswer
    refine hperm.mem_iff.mpr (List.mem_cons.mpr ?_)
    rcases Keyed.getElem?_concat_eq_some hbody' with hbody' | ⟨rfl, -⟩
    · exact .inr (h.accounted hopen i body' hbody' hanswer)
    · exact .inl rfl
  · intro hclosed
    exact absurd (hphase.symm.trans hclosed) nofun

theorem look (h : s.Writes limit answers es answered) (hreads : s.Reads limit)
    {found : Option (Nat × Bytes)} {c : Connection}
    (hlook : s.connection.Looks s.ended found c) :
    Writes limit answers es
      { s with connection := c, messages := s.messages ++ (found.map Prod.snd).toList }
      answered := by
  obtain ⟨connection, input, messages, ended⟩ := s
  dsimp only at hlook
  cases found with
  | some message =>
    cases hlook with
    | @found _ r body hphase hdecode =>
      rw [hreads.count]
      exact h.found hphase r body
  | none =>
    rw [Option.map_none, Option.toList_none, List.append_nil]
    cases hlook with
    | idle hphase => exact h
    | waits hphase hdecode => exact { h with }
    | drains hphase hdecode hempty =>
      refine of_settle { h with accounted := fun _ => h.accounted ?_, closed := nofun }
      dsimp only
      rw [hphase]
      nofun
    | fails hphase hlimit e =>
      exact { h with accounted := fun hnot => absurd rfl (hnot e), closed := nofun }

theorem ne_closed (h : s.Writes limit answers es answered) {i : Nat}
    (hi : i ∈ s.connection.inFlight) : s.connection.phase ≠ .closed := by
  intro hclosed
  rw [h.closed hclosed] at hi
  exact absurd hi List.not_mem_nil

/-- What is in flight or answered is only less once a message is finished without an answer. -/
theorem erase (h : s.Writes limit answers es answered) (i : Nat) :
    (s.connection.inFlight.erase i ++ answered.map Prod.fst).Nodup ∧
      ∀ j ∈ s.connection.inFlight.erase i ++ answered.map Prod.fst, j < s.messages.length := by
  have hless := (List.erase_sublist (a := i) (l := s.connection.inFlight)).append_right
    (answered.map Prod.fst)
  exact ⟨h.distinct.sublist hless, fun j hj => h.drawn j (hless.subset hj)⟩

/-- A notification is finished. -/
theorem silent (h : s.Writes limit answers es answered) {i : Nat}
    (hi : i ∈ s.connection.inFlight) {body : Bytes} (hbody : s.messages[i]? = some body)
    (hnotification : isNotification body = true) :
    Writes limit answers es
      { s with
        connection := { s.connection with inFlight := s.connection.inFlight.erase i } }
      answered := by
  obtain ⟨hdistinct, hdrawn⟩ := h.erase i
  refine { h with
    distinct := hdistinct
    drawn := hdrawn
    accounted := ?_
    closed := fun hclosed => absurd hclosed (h.ne_closed hi) }
  intro hopen j body' hbody' hanswer
  have hne : j ≠ i := by
    rintro rfl
    obtain rfl : body = body' := Option.some.inj (hbody.symm.trans hbody')
    exact Bool.false_ne_true (hanswer.symm.trans hnotification)
  rcases List.mem_append.mp (h.accounted hopen j body' hbody' hanswer) with hj | hj
  · exact List.mem_append_left _ ((List.mem_erase_of_ne hne).mpr hj)
  · exact List.mem_append_right _ hj

/-- A message is answered: its number goes from what is in flight to what is answered. -/
theorem respond (h : s.Writes limit answers es answered) {i : Nat}
    (hi : i ∈ s.connection.inFlight) (hevent : Event.finish i ∈ es) {body : Bytes}
    (hbody : s.messages[i]? = some body) {r : Response}
    (hresponse : (handle (answers i) body).response = some r)
    (hlength : (Json.bytesOf r).length ≤ limit) :
    Writes limit answers es
      { s with
        connection :=
          { s.connection with
            inFlight := s.connection.inFlight.erase i
            written := s.connection.written ++ r.frame } }
      (answered ++ [(i, r)]) := by
  have hperm : (s.connection.inFlight.erase i ++ (answered ++ [(i, r)]).map Prod.fst).Perm
      (s.connection.inFlight ++ answered.map Prod.fst) := by
    rw [List.map_append, ← List.append_assoc]
    exact (List.perm_append_singleton _ _).trans
      ((List.perm_cons_erase hi).symm.append_right (answered.map Prod.fst))
  refine ⟨?_, ?_, hperm.nodup_iff.mpr h.distinct, ?_, ?_, ?_, ?_⟩
  · dsimp only
    rw [List.flatMap_append, h.written]
    simp
  · intro a ha
    rcases List.mem_append.mp ha with ha | ha
    · exact h.short a ha
    · rw [List.mem_singleton.mp ha]
      exact hlength
  · intro j hj
    exact h.drawn j (hperm.mem_iff.mp hj)
  · intro a ha
    rcases List.mem_append.mp ha with ha | ha
    · exact h.responses a ha
    · rw [List.mem_singleton.mp ha]
      exact ⟨hevent, body, hbody, hresponse⟩
  · intro hopen j body' hbody' hanswer
    exact hperm.mem_iff.mpr (h.accounted hopen j body' hbody' hanswer)
  · intro hclosed
    exact absurd hclosed (h.ne_closed hi)

theorem finish (h : s.Writes limit answers es answered) (hreads : s.Reads limit) {i : Nat}
    (hevent : Event.finish i ∈ es) {body : Bytes} (hbody : s.messages[i]? = some body)
    {c : Connection} (hfinish : s.connection.Finishes i (handle (answers i) body).response c) :
    ∃ answered', Writes limit answers es { s with connection := c } answered' := by
  have hnone := isNone_response (answers i) body
  generalize hresponse : (handle (answers i) body).response = response at hfinish hnone
  cases hfinish with
  | idle => exact ⟨answered, h⟩
  | silent hi => exact ⟨answered, of_settle (h.silent hi hbody hnone.symm)⟩
  | @written r hi hlength =>
    rw [hreads.sameLimit] at hlength
    exact ⟨answered ++ [(i, r)], of_settle (h.respond hi hevent hbody hresponse hlength)⟩
  | tooLong hi e =>
    obtain ⟨hdistinct, hdrawn⟩ := h.erase i
    exact ⟨answered, { h with
      distinct := hdistinct
      drawn := hdrawn
      accounted := fun hnot => absurd rfl (hnot e)
      closed := nofun }⟩

/-- **Every event keeps the responses right.** -/
theorem step (h : s.Writes limit answers es answered) (hreads : s.Reads limit) (e : Event) :
    ∃ answered', (s.step answers e).Writes limit answers (es ++ [e]) answered' := by
  have hmono := h.mono e
  cases e with
  | arrive chunk =>
    rw [Serving.step]
    split
    · exact ⟨answered, hmono⟩
    · rw [Connection.arrive]
      split
      · exact ⟨answered, { hmono with }⟩
      · exact ⟨answered, { hmono with }⟩
  | peerDone => exact ⟨answered, { hmono with }⟩
  | look => exact ⟨answered, hmono.look hreads (s.connection.looks s.ended)⟩
  | finish i =>
    rw [Serving.step]
    split
    · exact ⟨answered, hmono⟩
    · rename_i body hbody
      exact hmono.finish hreads (List.mem_append_right _ (List.mem_singleton_self _)) hbody
        (s.connection.finishes i _)

end Writes

/-! ### Whole runs -/

theorem reads_new (limit : Nat) : (new limit).Reads limit :=
  ⟨rfl, rfl, .new limit, .nil _, fun _ => .refl _, nofun⟩

theorem writes_new (limit : Nat) (answers : Answers) : (new limit).Writes limit answers [] [] :=
  ⟨rfl, nofun, .nil, nofun, nofun, nofun, nofun⟩

/-- What holds of a connection and its events holds after more events. -/
theorem sound_run {limit : Nat} {answers : Answers} {s : Serving} {past : List Event}
    (hreads : s.Reads limit) (hwrites : ∃ answered, s.Writes limit answers past answered)
    (es : List Event) :
    (s.run answers es).Reads limit ∧
      ∃ answered, (s.run answers es).Writes limit answers (past ++ es) answered := by
  induction es generalizing s past with
  | nil => exact ⟨hreads, by rwa [List.append_nil]⟩
  | cons e es ih =>
    obtain ⟨answered, hwrites⟩ := hwrites
    have hrun := ih (hreads.step answers e) (hwrites.step hreads e)
    rwa [List.append_assoc] at hrun

/-- **One response for each request.** Whatever bytes come over a connection, in whatever pieces,
and in whatever order its messages are finished: what has been written are whole frames. Each holds
the response to another one of the messages taken so far, as it was handled, and none of those is a
notification. Once the connection is closed, all messages of its input have been taken, and all
that are no notifications have been answered. -/
theorem one_response_per_request (limit : Nat) (answers : Answers) (es : List Event) :
    ∃ (rest : Receiver) (answered : List (Nat × Response)),
      ((Receiver.new limit).feed ((new limit).run answers es).input).Takes
        ((new limit).run answers es).messages rest ∧
      ((new limit).run answers es).connection.written = (answered.flatMap fun a => a.2.frame) ∧
      (∀ a ∈ answered, (Json.bytesOf a.2).length ≤ limit) ∧
      (answered.map Prod.fst).Nodup ∧
      (∀ a ∈ answered, Event.finish a.1 ∈ es ∧
        ∃ body, ((new limit).run answers es).messages[a.1]? = some body ∧
          (handle (answers a.1) body).response = some a.2 ∧ isNotification body = false) ∧
      (((new limit).run answers es).connection.phase = .closed →
        rest.finish.1 = .ok none ∧
        ∀ i body, ((new limit).run answers es).messages[i]? = some body →
          isNotification body = false → i ∈ answered.map Prod.fst) := by
  obtain ⟨hreads, answered, hwrites⟩ :=
    sound_run (reads_new limit) ⟨[], writes_new limit answers⟩ es
  obtain ⟨rest, htakes, -, hdone⟩ := hreads.taken
  refine ⟨rest, answered, htakes, hwrites.written, hwrites.short, ?_, fun a ha => ?_,
    fun hclosed => ⟨?_, fun i body hbody hanswer => ?_⟩⟩
  · exact (List.nodup_append.mp hwrites.distinct).2.1
  · obtain ⟨hevent, body, hbody, hresponse⟩ := hwrites.responses a ha
    refine ⟨hevent, body, hbody, hresponse, ?_⟩
    rw [← isNone_response (answers a.1), hresponse]
    rfl
  · obtain ⟨-, r, hdecode, hempty⟩ := hdone (.inr hclosed)
    rw [Receiver.finish_of_none hdecode, hempty]
    rfl
  · have hmem := hwrites.accounted (by rw [hclosed]; nofun) i body hbody hanswer
    rwa [hwrites.closed hclosed, List.nil_append] at hmem

/-- Two messages, the second of them finished first, and both after the peer is done. -/
example :
    let message := Utf8.ofString "Content-Length: 2\r\n\r\n[]"
    ((new 1000).run (fun _ _ => .error .closed) [.arrive message, .arrive message, .look, .look,
      .peerDone, .look, .finish 1, .finish 0]).connection.phase = .closed := by
  decide +kernel

end Serving

end Rpc

end PlatformProxy
