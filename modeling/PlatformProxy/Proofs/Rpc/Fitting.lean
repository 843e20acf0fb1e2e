import PlatformProxy.Proofs.Frame.LongHeaders
import PlatformProxy.Proofs.Rpc.Ending

/-!
# Connections that are not lost

A peer that sends whole messages and nothing else can lose its connection in two ways. A header may
be so long that its end is given up on, and a response may be longer than the limit, which holds in
both directions. Where neither happens, nothing can go wrong: the connection does not fail, and once
the peer is done it comes to rest after finitely many events, closed, with every request answered.

The end of a connection is not a matter of order. After the peer is done, each event that changes
anything takes a message off the stream or finishes one, and there are only so many. A connection on
which no event has an effect has nothing left to do.

## Main definitions

* `Rpc.Serving.Sends` — what has come over a connection is of a stream
* `Rpc.Serving.Busy` — events that all have an effect
* `Rpc.Serving.workLeft` — how many of them there can be

## Main results

* `Frame.Whole.next` — what comes next in a stream of whole messages
* `Rpc.Serving.Sound.step` — every event keeps the connection from failing
* `Rpc.Serving.workLeft_lt` — an event that has an effect leaves less to do
* `Rpc.Serving.fitting_connection_is_closed` — what this means for whole runs
-/

namespace PlatformProxy

namespace Frame

open Receiver (drain_of_takes drain_of_error drain_of_none drain_append_of_error drain_eq_whole_iff)

/-- **What comes next in a stream of whole messages** is one of them, or a place where more is to
come. The stream is over when all have been taken, and nothing is left then. -/
theorem Whole.next {limit : Nat} {stream input : Bytes} {bodies messages : List Bytes}
    {r : Receiver} (hwhole : Whole limit stream bodies) (hshort : ShortHeaders limit stream)
    (hinput : input <+: stream) (htakes : ((Receiver.new limit).feed input).Takes messages r) :
    messages <+: bodies ∧
      ((∃ body r', r.decode = (.ok (some body), r')) ∨
        ∃ r', r.decode = (.ok none, r') ∧
          (input = stream → messages = bodies ∧ r'.buffer = [])) := by
  obtain ⟨more, rfl⟩ := hinput
  have hall := drain_eq_whole_iff.mpr hwhole
  have hmore := drain_of_takes (htakes.feed more)
  rw [Receiver.feed_feed] at hmore
  refine ⟨⟨_, (Prod.mk.inj (hmore.symm.trans hall)).1⟩, ?_⟩
  have hpart := drain_of_takes htakes
  match hdecode : r.decode with
  | (.ok (some body), r') => exact .inl ⟨body, r', rfl⟩
  | (.error e, r') =>
    -- A fault would be one of the whole stream.
    rw [drain_of_error hdecode] at hpart
    have herror := drain_append_of_error hshort hpart
    exact absurd (Prod.mk.inj (herror.symm.trans hall)).2 nofun
  | (.ok none, r') =>
    refine .inr ⟨r', rfl, fun hend => ?_⟩
    rw [drain_of_none hdecode, List.append_nil] at hpart
    rw [← hend] at hall
    obtain ⟨hmessages, hr⟩ := Prod.mk.inj (hpart.symm.trans hall)
    exact ⟨hmessages, congrArg Receiver.buffer (Except.ok.inj hr)⟩

/-- A message with a padded header. -/
theorem whole_padded (limit blanks : Nat) {body : Bytes} (hbody : body.length = 21)
    (hlimit : 21 ≤ limit) : Whole limit (paddedLines blanks ++ lineEnd ++ body) [body] :=
  ⟨0, messages_padded blanks hbody hlimit⟩

end Frame

namespace Rpc

open PlatformProxy.Frame

namespace Connection

variable {c : Connection}

theorem ne_failed_settle (h : ∀ e, c.phase ≠ .failed e) (e : Frame.Error) :
    c.settle.phase ≠ .failed e := by
  obtain hsame | ⟨-, -, hclosed⟩ := c.settle_cases
  · rw [hsame]
    exact h e
  · rw [hclosed]
    nofun

theorem look_of_ne_reading (h : c.phase ≠ .reading) (ended : Bool) : c.look ended = (none, c) := by
  cases ended with
  | false =>
    show c.next = _
    rw [next]
    split
    · rename_i hphase
      exact absurd hphase h
    · rfl
  | true =>
    show c.nextAtEnd = _
    rw [nextAtEnd]
    split
    · rename_i hphase
      exact absurd hphase h
    · rfl

/-- Looking for a message fails only if the receiver finds a fault, or the end of the stream within
a message. -/
theorem ne_failed_look {ended : Bool} (h : ∀ e, c.phase ≠ .failed e)
    (hdecode : c.phase = .reading → (∃ body r, c.receiver.decode = (.ok (some body), r)) ∨
      ∃ r, c.receiver.decode = (.ok none, r) ∧ (ended = true → r.buffer = [])) (e : Frame.Error) :
    (c.look ended).2.phase ≠ .failed e := by
  by_cases hphase : c.phase = .reading
  · rcases hdecode hphase with ⟨body, r, hbody⟩ | ⟨r, hnone, hempty⟩
    · have hfinish : c.receiver.finish = (.ok (some body), r) := by
        rw [Receiver.finish_of_ne_none (by rw [hbody]; simp), hbody]
      cases ended <;> simp [look, next, nextAtEnd, accept, hphase, hbody, hfinish]
    · cases ended with
      | false => simp [look, next, accept, hphase, hnone]
      | true =>
        have hfinish : c.receiver.finish = (.ok none, r) := by
          rw [Receiver.finish_of_none hnone, hempty rfl]
          rfl
        simp only [look, nextAtEnd, accept, hphase, hfinish, if_true]
        refine ne_failed_settle (c := { c with receiver := r, phase := .draining }) ?_ e
        intro _ hfailed
        cases hfailed
  · rw [look_of_ne_reading hphase]
    exact h e

/-- Finishing a message fails only if its response is too long. -/
theorem ne_failed_answer {i : Nat} {response : Option Response} (h : ∀ e, c.phase ≠ .failed e)
    (hfits : ∀ r, response = some r → (Json.bytesOf r).length ≤ c.receiver.limit)
    (e : Frame.Error) : (c.answer i response).phase ≠ .failed e := by
  have hleft : ∀ e, ({ c with inFlight := c.inFlight.erase i } : Connection).phase ≠ .failed e := h
  rw [answer]
  by_cases hi : i ∈ c.inFlight
  · simp only [if_pos hi]
    cases response with
    | none => split <;> first | exact h e | exact ne_failed_settle hleft e
    | some r =>
      have hwritten : ∀ e,
          (write { c with inFlight := c.inFlight.erase i } r).phase ≠ .failed e := by
        rw [write, Frame.encode, if_neg (Nat.not_lt.mpr (hfits r rfl))]
        exact hleft
      split <;> first | exact h e | exact ne_failed_settle hwritten e
  · simp only [if_neg hi]
    split <;> exact h e

/-- A connection that has to answer what is in flight has something in flight. -/
def Occupied (c : Connection) : Prop := c.phase = .draining → c.inFlight ≠ []

theorem occupied_settle (c : Connection) : c.settle.Occupied := by
  rw [settle]
  split
  · intro hdraining
    cases hdraining
  · rename_i hopen
    exact fun hphase hnone => hopen hphase hnone

theorem Looks.occupied {ended : Bool} {found : Option (Nat × Bytes)} {c' : Connection}
    (h : c.Looks ended found c') (hoccupied : c.Occupied) : c'.Occupied := by
  cases h with
  | idle => exact hoccupied
  | found hphase => exact fun hdraining => absurd (hphase.symm.trans hdraining) nofun
  | waits hphase => exact fun hdraining => absurd (hphase.symm.trans hdraining) nofun
  | drains => exact occupied_settle _
  | fails => exact nofun

theorem Finishes.occupied {i : Nat} {response : Option Response} {c' : Connection}
    (h : c.Finishes i response c') (hoccupied : c.Occupied) : c'.Occupied := by
  cases h with
  | idle => exact hoccupied
  | silent => exact occupied_settle _
  | written => exact occupied_settle _
  | tooLong => exact nofun

/-- Once the peer is done, looking for a message finds one or notices the end. -/
theorem Looks.effect {ended : Bool} {found : Option (Nat × Bytes)} {c' : Connection}
    (h : c.Looks ended found c') (hended : ended = true) (hphase : c.phase = .reading) :
    found ≠ none ∨ c'.phase ≠ .reading := by
  cases h with
  | waits => exact absurd hended Bool.false_ne_true
  | idle hnot => exact absurd hphase hnot
  | found => exact .inl nofun
  | @drains r =>
    refine .inr ?_
    obtain hsame | ⟨-, -, hclosed⟩ :=
      settle_cases { c with receiver := r, phase := .draining }
    · rw [hsame]
      nofun
    · rw [hclosed]
      nofun
  | fails => exact .inr nofun

theorem inFlight_settle (c : Connection) : c.settle.inFlight = c.inFlight := by
  obtain hsame | ⟨-, -, hclosed⟩ := c.settle_cases
  · rw [hsame]
  · rw [hclosed]

/-- A message that is finished is not in flight any more. -/
theorem inFlight_answer (hphase : c.phase = .draining) {i : Nat} (hi : i ∈ c.inFlight)
    (response : Option Response) : (c.answer i response).inFlight = c.inFlight.erase i := by
  rw [answer, hphase]
  simp only [if_pos hi]
  cases response with
  | none => exact inFlight_settle _
  | some r =>
    refine (inFlight_settle _).trans ?_
    rw [write]
    split <;> rfl

end Connection

namespace Serving

/-! ### What comes over a connection -/

/-- What has come over a connection is of a stream, and it is all of it if no more will come. -/
structure Sends (stream : Bytes) (s : Serving) : Prop where
  input : s.input <+: stream
  ended : s.ended = true → s.input = stream

variable {limit : Nat} {stream : Bytes} {bodies : List Bytes} {answers : Answers} {s : Serving}

theorem Sends.of_step {e : Event} (h : (s.step answers e).Sends stream) : s.Sends stream := by
  cases e with
  | arrive chunk =>
    rw [step] at h
    split at h
    · exact h
    · rename_i hopen
      exact ⟨(List.prefix_append s.input chunk).trans h.input, fun hended => absurd hended hopen⟩
  | peerDone => exact ⟨h.input, fun _ => h.ended rfl⟩
  | look => exact ⟨h.input, h.ended⟩
  | finish i =>
    rw [step] at h
    split at h
    · exact h
    · exact ⟨h.input, h.ended⟩

theorem Sends.of_run {es : List Event} (h : (s.run answers es).Sends stream) :
    s.Sends stream := by
  induction es generalizing s with
  | nil => exact h
  | cons e es ih => exact (ih h).of_step

/-- After the end nothing comes. -/
theorem step_of_ended (h : s.ended = true) (answers : Answers) (e : Event) :
    (s.step answers e).input = s.input ∧ (s.step answers e).ended = true := by
  cases e with
  | arrive chunk =>
    rw [step, if_pos h]
    exact ⟨rfl, h⟩
  | peerDone => exact ⟨rfl, rfl⟩
  | look => exact ⟨rfl, h⟩
  | finish i =>
    rw [step]
    split
    · exact ⟨rfl, h⟩
    · exact ⟨rfl, h⟩

theorem Sends.step_of_ended (h : s.Sends stream) (hended : s.ended = true) (e : Event) :
    (s.step answers e).Sends stream := by
  have hsame := (Serving.step_of_ended hended answers e).1
  exact ⟨hsame ▸ h.input, fun _ => hsame.trans (h.ended hended)⟩

/-! ### Nothing fails -/

/-- The responses to some messages are not longer than the limit. -/
def Fits (limit : Nat) (answers : Answers) (bodies : List Bytes) : Prop :=
  ∀ i body r, bodies[i]? = some body → (handle (answers i) body).response = some r →
    (Json.bytesOf r).length ≤ limit

/-- What holds of a connection that is not lost. -/
structure Sound (limit : Nat) (answers : Answers) (past : List Event) (s : Serving) : Prop where
  reads : s.Reads limit
  writes : ∃ answered, s.Writes limit answers past answered
  alive : ∀ e, s.connection.phase ≠ .failed e
  occupied : s.connection.Occupied

variable {past : List Event}

theorem Reads.prefix_bodies (h : s.Reads limit) (hwhole : Whole limit stream bodies)
    (hshort : ShortHeaders limit stream) (hsends : s.Sends stream) : s.messages <+: bodies := by
  obtain ⟨r, htakes, -, -⟩ := h.taken
  exact (hwhole.next hshort hsends.input htakes).1

/-- **Every event keeps the connection from failing.** -/
theorem Sound.step (h : s.Sound limit answers past) (hwhole : Whole limit stream bodies)
    (hshort : ShortHeaders limit stream) (hfits : Fits limit answers bodies) {e : Event}
    (hsends : (s.step answers e).Sends stream) :
    (s.step answers e).Sound limit answers (past ++ [e]) := by
  obtain ⟨answered, hwrites⟩ := h.writes
  have hsent := hsends.of_step
  refine ⟨h.reads.step answers e, hwrites.step h.reads e, ?_, ?_⟩
  · cases e with
    | arrive chunk =>
      rw [Serving.step]
      split
      · exact h.alive
      · rw [Connection.arrive]
        split <;> exact h.alive
    | peerDone => exact h.alive
    | look =>
      obtain ⟨r, htakes, hagrees, -⟩ := h.reads.taken
      refine Connection.ne_failed_look h.alive fun hphase => ?_
      rw [← (hagrees hphase).decode]
      refine (hwhole.next hshort hsent.input htakes).2.imp_right ?_
      rintro ⟨r', hnone, hlast⟩
      exact ⟨r', hnone, fun hended => (hlast (hsent.ended hended)).2⟩
    | finish i =>
      rw [Serving.step]
      split
      · exact h.alive
      · rename_i body hbody
        refine Connection.ne_failed_answer h.alive fun r hr => ?_
        rw [h.reads.sameLimit]
        obtain ⟨others, hothers⟩ := h.reads.prefix_bodies hwhole hshort hsent
        refine hfits i body r ?_ hr
        rw [← hothers]
        exact Keyed.getElem?_append_of_eq_some hbody others
  · cases e with
    | arrive chunk =>
      rw [Serving.step]
      split
      · exact h.occupied
      · rw [Connection.arrive]
        split <;> exact h.occupied
    | peerDone => exact h.occupied
    | look => exact (s.connection.looks s.ended).occupied h.occupied
    | finish i =>
      rw [Serving.step]
      split
      · exact h.occupied
      · exact (s.connection.finishes i _).occupied h.occupied

theorem sound_new (limit : Nat) (answers : Answers) : (new limit).Sound limit answers [] :=
  ⟨reads_new limit, ⟨[], writes_new limit answers⟩, nofun, nofun⟩

theorem Sound.run (h : s.Sound limit answers past) (hwhole : Whole limit stream bodies)
    (hshort : ShortHeaders limit stream) (hfits : Fits limit answers bodies) {es : List Event}
    (hsends : (s.run answers es).Sends stream) :
    (s.run answers es).Sound limit answers (past ++ es) := by
  induction es generalizing s past with
  | nil => rwa [List.append_nil]
  | cons e es ih =>
    have hrun := ih (h.step hwhole hshort hfits (Sends.of_run hsends)) hsends
    rwa [List.append_assoc] at hrun

/-! ### Coming to rest -/

/-- Events that all have an effect, one after another. -/
inductive Busy (answers : Answers) : Serving → List Event → Prop
  | nil (s : Serving) : Busy answers s []
  | cons {s : Serving} {e : Event} {es : List Event} (h : s.step answers e ≠ s)
      (rest : Busy answers (s.step answers e) es) : Busy answers s (e :: es)

/-- What is left to do after the end: messages are taken and finished, and the end is noticed. -/
def workLeft (total : Nat) (s : Serving) : Nat :=
  2 * (total - s.messages.length) + s.connection.inFlight.length +
    if s.connection.phase = .reading then 1 else 0

theorem workLeft_le (h : s.Sound limit answers past) {total : Nat}
    (htotal : s.messages.length ≤ total) : workLeft total s ≤ 2 * total + 1 := by
  obtain ⟨answered, hwrites⟩ := h.writes
  have hdistinct := (List.nodup_append.mp hwrites.distinct).1
  have hflight : s.connection.inFlight.length ≤ s.messages.length := by
    have hrange : s.connection.inFlight ⊆ List.range s.messages.length := fun i hi =>
      List.mem_range.mpr (hwrites.drawn i (List.mem_append_left _ hi))
    simpa using (List.subperm_of_subset hdistinct hrange).length_le
  rw [workLeft]
  split <;> omega

theorem workLeft_settle_le (total : Nat) (s : Serving) (c : Connection) :
    workLeft total { s with connection := c.settle } ≤
      workLeft total { s with connection := c } := by
  obtain hsame | ⟨hphase, -, hclosed⟩ := c.settle_cases
  · rw [hsame]
  · simp [workLeft, hclosed, hphase]

/-- A message in flight is finished. -/
theorem workLeft_erase_lt (total : Nat) (s : Serving) {i : Nat} (hi : i ∈ s.connection.inFlight)
    {c : Connection} (hflight : c.inFlight = s.connection.inFlight.erase i)
    (hphase : c.phase = .reading → s.connection.phase = .reading) :
    workLeft total { s with connection := c } < workLeft total s := by
  have hlength := List.length_erase_of_mem hi
  have hpos := List.length_pos_of_mem hi
  rw [workLeft, workLeft]
  dsimp only
  rw [hflight, hlength]
  split_ifs with hreading hbefore
  · omega
  · exact absurd (hphase hreading) hbefore
  · omega
  · omega

/-- **An event that has an effect leaves less to do.** -/
theorem workLeft_lt (hended : s.ended = true) {total : Nat} {e : Event}
    (htotal : (s.step answers e).messages.length ≤ total) (heffect : s.step answers e ≠ s) :
    workLeft total (s.step answers e) < workLeft total s := by
  cases e with
  | arrive chunk => exact absurd (if_pos hended) heffect
  | peerDone => exact absurd (by rw [Serving.step, ← hended]) heffect
  | look =>
    obtain ⟨connection, input, messages, ended⟩ := s
    obtain rfl : ended = true := hended
    have hlooks := connection.looks true
    rw [step] at heffect htotal ⊢
    dsimp only at heffect htotal ⊢
    generalize connection.look true = looked at hlooks heffect htotal ⊢
    obtain ⟨found, c⟩ := looked
    dsimp only at hlooks heffect htotal ⊢
    cases hlooks with
    | idle => exact absurd (by simp) heffect
    | found hphase =>
      simp [workLeft, hphase] at htotal ⊢
      omega
    | drains hphase =>
      rw [Option.map_none, Option.toList_none, List.append_nil]
      refine Nat.lt_of_le_of_lt (workLeft_settle_le total ⟨connection, input, messages, true⟩ _) ?_
      simp [workLeft, hphase]
    | fails hphase => simp [workLeft, hphase]
  | finish i =>
    rw [step] at heffect ⊢
    split at heffect
    · exact absurd rfl heffect
    · rename_i body hbody
      have hfinishes := s.connection.finishes i (handle (answers i) body).response
      generalize s.connection.answer i (handle (answers i) body).response = c at hfinishes heffect ⊢
      generalize (handle (answers i) body).response = response at hfinishes
      cases hfinishes with
      | idle => exact absurd rfl heffect
      | silent hi =>
        exact Nat.lt_of_le_of_lt (workLeft_settle_le total s _)
          (workLeft_erase_lt total s hi rfl id)
      | written hi _ =>
        exact Nat.lt_of_le_of_lt (workLeft_settle_le total s _)
          (workLeft_erase_lt total s hi rfl id)
      | tooLong hi e =>
        refine workLeft_erase_lt total s hi rfl fun hfailed => ?_
        cases hfailed

theorem length_le_of_busy (h : s.Sound limit answers past) (hwhole : Whole limit stream bodies)
    (hshort : ShortHeaders limit stream) (hfits : Fits limit answers bodies)
    (hsends : s.Sends stream) (hended : s.ended = true) {es : List Event}
    (hbusy : Busy answers s es) : es.length ≤ workLeft bodies.length s := by
  induction hbusy generalizing past with
  | nil => exact Nat.zero_le _
  | @cons s e es heffect _ ih =>
    have hsent : (s.step answers e).Sends stream := hsends.step_of_ended hended e
    have hnext := h.step hwhole hshort hfits hsent
    have htotal := (hnext.reads.prefix_bodies hwhole hshort hsent).length_le
    have hless := workLeft_lt hended htotal heffect
    have hrest := ih hnext hsent (step_of_ended hended answers e).2
    rw [List.length_cons]
    omega

/-- **A connection on which nothing has an effect is closed**, once the peer is done. -/
theorem Sound.closed_of_rest (h : s.Sound limit answers past) (hended : s.ended = true)
    (hrest : ∀ e, s.step answers e = s) : s.connection.phase = .closed := by
  cases hphase : s.connection.phase with
  | closed => rfl
  | failed e => exact absurd hphase (h.alive e)
  | reading =>
    have hmessages : s.messages ++ ((s.connection.look s.ended).1.map Prod.snd).toList =
        s.messages := congrArg messages (hrest .look)
    have hconnection : (s.connection.look s.ended).2 = s.connection :=
      congrArg connection (hrest .look)
    rcases (s.connection.looks s.ended).effect hended hphase with hfound | hchanged
    · obtain ⟨found, hfound⟩ := Option.ne_none_iff_exists'.mp hfound
      rw [hfound] at hmessages
      simp at hmessages
    · rw [hconnection] at hchanged
      exact absurd hphase hchanged
  | draining =>
    obtain ⟨i, hi⟩ := List.exists_mem_of_ne_nil _ (h.occupied hphase)
    obtain ⟨answered, hwrites⟩ := h.writes
    obtain ⟨body, hbody⟩ : ∃ body, s.messages[i]? = some body :=
      ⟨_, List.getElem?_eq_getElem (hwrites.drawn i (List.mem_append_left _ hi))⟩
    have hfinish := congrArg (fun s => s.connection.inFlight) (hrest (.finish i))
    rw [Serving.step, hbody] at hfinish
    dsimp only at hfinish
    rw [Connection.inFlight_answer hphase hi] at hfinish
    have hlength := congrArg List.length hfinish
    rw [List.length_erase_of_mem hi] at hlength
    have hpos := List.length_pos_of_mem hi
    omega

/-- **A connection is not lost if its headers and responses fit.** Let a stream consist of whole
messages and blank lines, let no header of it be long, and let no response to one of its messages be
longer than the limit, however the session answers. Then the connection that gets this stream does
not fail, in whatever pieces the stream comes and in whatever order its messages are finished. Once
the peer is done, there are only so many events that have an effect, and when no event has one the
connection is closed. By then all messages have been taken, what has been written are whole frames,
and each message that is no notification has been answered once, as it was handled. -/
theorem fitting_connection_is_closed (hwhole : Whole limit stream bodies)
    (hshort : ShortHeaders limit stream) (hfits : Fits limit answers bodies) (es : List Event)
    (hsends : ((new limit).run answers es).Sends stream) :
    let s := (new limit).run answers es
    (∀ e, s.connection.phase ≠ .failed e) ∧
    (s.ended = true → ∀ more, Busy answers s more → more.length ≤ 2 * bodies.length + 1) ∧
    (s.ended = true → (∀ e, s.step answers e = s) → s.connection.phase = .closed) ∧
    (s.connection.phase = .closed → s.messages = bodies ∧
      ∃ answered : List (Nat × Response),
        s.connection.written = (answered.flatMap fun a => a.2.frame) ∧
        (answered.map Prod.fst).Nodup ∧
        (∀ a ∈ answered, ∃ body, bodies[a.1]? = some body ∧
          (handle (answers a.1) body).response = some a.2) ∧
        ∀ i body, bodies[i]? = some body → isNotification body = false →
          i ∈ answered.map Prod.fst) := by
  intro s
  have hsound : s.Sound limit answers ([] ++ es) :=
    (sound_new limit answers).run hwhole hshort hfits hsends
  refine ⟨hsound.alive, fun hended more hbusy => ?_, hsound.closed_of_rest, fun hclosed => ?_⟩
  · have htotal := (hsound.reads.prefix_bodies hwhole hshort hsends).length_le
    exact (length_le_of_busy hsound hwhole hshort hfits hsends hended hbusy).trans
      (workLeft_le hsound htotal)
  · obtain ⟨r, htakes, -, hdone⟩ := hsound.reads.taken
    obtain ⟨hended, r', hnone, -⟩ := hdone (.inr hclosed)
    have hall : s.messages = bodies := by
      rcases (hwhole.next hshort hsends.input htakes).2 with ⟨body, r'', hbody⟩ | ⟨r'', -, hlast⟩
      · exact absurd (Prod.mk.inj (hbody.symm.trans hnone)).1 nofun
      · exact (hlast (hsends.ended hended)).1
    obtain ⟨answered, hwrites⟩ := hsound.writes
    refine ⟨hall, answered, hwrites.written, (List.nodup_append.mp hwrites.distinct).2.1, ?_, ?_⟩
    · intro a ha
      rw [← hall]
      exact (hwrites.responses a ha).2
    · intro i body hbody hanswer
      rw [← hall] at hbody
      have hmem := hwrites.accounted hsound.alive i body hbody hanswer
      rwa [hwrites.closed hclosed, List.nil_append] at hmem

/-- A call of a method that does not exist. -/
def unknownCall : Bytes := Utf8.ofString "\x7b\"id\":1,\"method\":\"M\"\x7d"

/-- The response that says so. -/
def unknownResponse : Response := .failure (.natural 1) (.methodNotFound "M")

theorem handle_unknownCall (answerCommand : Session.Command → Session.Outcome) :
    (handle answerCommand unknownCall).response = some unknownResponse := by
  have hreceive : receive unknownCall = .done ⟨false, some unknownResponse⟩ := by decide +kernel
  rw [handle, hreceive]

/-- A limit that leaves room for the response. -/
theorem unknownCall_within_limit :
    let stream := message unknownCall
    let answers : Answers := fun _ _ => .error .closed
    let s := (new 100).run answers [.arrive stream, .look, .peerDone, .look, .finish 0]
    Whole 100 stream [unknownCall] ∧ ShortHeaders 100 stream ∧ Fits 100 answers [unknownCall] ∧
      s.Sends stream ∧ s.connection.phase = .closed ∧ s.messages = [unknownCall] := by
  intro stream answers s
  have hwhole : Whole 100 stream [unknownCall] :=
    Receiver.drain_eq_whole_iff.mp (by decide +kernel)
  have hshort : ShortHeaders 100 stream := shortHeaders_of_length (by decide +kernel)
  have hfits : Fits 100 answers [unknownCall] := by
    intro i body r hbody hr
    obtain rfl : body = unknownCall := by simpa using List.mem_of_getElem? hbody
    rw [handle_unknownCall] at hr
    obtain rfl := Option.some.inj hr
    decide +kernel
  have hsends : s.Sends stream := ⟨by decide +kernel, fun _ => by decide +kernel⟩
  have hclosed : s.connection.phase = .closed := by decide +kernel
  exact ⟨hwhole, hshort, hfits, hsends, hclosed,
    ((fitting_connection_is_closed hwhole hshort hfits _ hsends).2.2.2 hclosed).1⟩

/-- A header that is given up on before its end has come. -/
theorem header_may_be_long {blanks : Nat} (h : headerLimit ≤ blanks) :
    let stream := paddedLines blanks ++ lineEnd ++ unknownCall
    let s := (new 100).run (fun _ _ => .error .closed) [.arrive (paddedStart blanks), .look]
    Whole 100 stream [unknownCall] ∧ s.Sends stream ∧
      s.connection.phase = .failed (.longHeader headerLimit) := by
  intro stream s
  have hinput : s.input = paddedStart blanks := rfl
  obtain ⟨r, hr⟩ := decode_paddedStart 100 h
  refine ⟨whole_padded 100 blanks (by decide +kernel) (by decide), ⟨?_, nofun⟩, ?_⟩
  · rw [hinput]
    exact (isPrefix_paddedStart blanks).trans
      ⟨lineEnd ++ unknownCall, (List.append_assoc _ _ _).symm⟩
  · have hlook : s.connection =
        (Connection.accept ((Connection.new 100).arrive (paddedStart blanks))
          ((Receiver.new 100).feed (paddedStart blanks)).decode).2 := rfl
    rw [hlook, hr]
    rfl

/-- Whole messages may cost the connection. A response may be too long for a limit that all messages
meet; then the connection fails although the message is to be answered, and nothing has been
written. And a header may be so long that the connection fails before its end has come. -/
theorem whole_messages_may_fail :
    isNotification unknownCall = false ∧
    (let stream := message unknownCall
      let s := (new 40).run (fun _ _ => .error .closed)
        [.arrive stream, .look, .peerDone, .look, .finish 0]
      Whole 40 stream [unknownCall] ∧ ShortHeaders 40 stream ∧ s.Sends stream ∧ s.ended = true ∧
        s.connection.phase = .failed (.longBody 80 40) ∧ s.connection.written = []) ∧
    (let stream := paddedLines 8192 ++ lineEnd ++ unknownCall
      let s := (new 100).run (fun _ _ => .error .closed) [.arrive (paddedStart 8192), .look]
      Whole 100 stream [unknownCall] ∧ s.Sends stream ∧
        s.connection.phase = .failed (.longHeader headerLimit)) := by
  refine ⟨by decide +kernel, ?_, header_may_be_long (Nat.le_refl _)⟩
  intro stream s
  exact ⟨Receiver.drain_eq_whole_iff.mp (by decide +kernel),
    shortHeaders_of_length (by decide +kernel), ⟨by decide +kernel, fun _ => by decide +kernel⟩,
    by decide +kernel, by decide +kernel, by decide +kernel⟩

end Serving

end Rpc

end PlatformProxy
