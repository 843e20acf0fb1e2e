import PlatformProxy.Proofs.Keyed
import PlatformProxy.Proofs.Rpc.Connection
import PlatformProxy.Proofs.Rpc.Listener
import PlatformProxy.Rpc.Server

/-!
# Connections and their slots

A connection of a server has its number from the slots. It is there exactly as long as its slot is
in use, and no number is given out twice. All connections share the session, but what comes over one
of them leaves the others as they are, and so does the way it ends.

## Main definitions

* `Rpc.Server.Sound` — the slots add up, and the connections are those that have one

## Main results

* `Rpc.Server.Sound.step`, `Rpc.Server.Sound.run` — every event keeps a server sound
* `Rpc.Server.Sound.exists_of_step` — a connection only writes more
* `Rpc.Server.connections_have_slots` — what holds of the connections of a server
-/

namespace PlatformProxy

namespace Rpc

/-! ### What a connection has written -/

namespace Connection

variable {c c' : Connection}

theorem written_settle (c : Connection) : c.settle.written = c.written := by
  rcases c.settle_cases with h | ⟨-, -, h⟩ <;> rw [h]

theorem Looks.written_eq {ended : Bool} {found : Option (Nat × Bytes)}
    (h : c.Looks ended found c') : c'.written = c.written := by
  cases h with
  | idle | found | waits | fails => rfl
  | drains => exact written_settle _

theorem written_nextAll (fuel : Nat) (c : Connection) :
    (nextAll fuel c).2.written = c.written := by
  induction fuel generalizing c with
  | zero => rfl
  | succ fuel ih =>
    have hnext := (looks_next c).written_eq
    rw [nextAll]
    split <;> rename_i hc
    · rwa [hc] at hnext
    · rw [hc] at hnext
      exact (ih _).trans hnext

theorem written_nextAllAtEnd (fuel : Nat) (c : Connection) :
    (nextAllAtEnd fuel c).2.written = c.written := by
  induction fuel generalizing c with
  | zero => rfl
  | succ fuel ih =>
    have hnext := (looks_nextAtEnd c).written_eq
    rw [nextAllAtEnd]
    split <;> rename_i hc
    · rwa [hc] at hnext
    · rw [hc] at hnext
      exact (ih _).trans hnext

theorem written_arrive (c : Connection) (chunk : Bytes) : (c.arrive chunk).written = c.written := by
  rw [arrive]
  split <;> rfl

theorem Finishes.written_grows {i : Nat} {response : Option Response}
    (h : c.Finishes i response c') : c.written <+: c'.written := by
  cases h with
  | idle | tooLong => exact List.prefix_rfl
  | silent => rw [written_settle]
  | written =>
    rw [written_settle]
    exact List.prefix_append _ _

end Connection

namespace Exchange

variable {σ : Type} [Platform.Client σ]

theorem written_answerAll (x : Exchange σ) (rounds : Nat) (requests : List (Nat × Bytes))
    (c : Connection) : c.written <+: (x.answerAll rounds requests c).1.written := by
  rw [answerAll]
  dsimp only
  generalize (requests.map Prod.fst).zip _ = finished
  induction finished generalizing c with
  | nil => exact List.prefix_rfl
  | cons f finished ih =>
    obtain ⟨i, answer⟩ := f
    cases answer with
    | none => exact ih c
    | some a => exact (c.finishes i a.response).written_grows.trans (ih _)

theorem written_receive (x : Exchange σ) (rounds : Nat) (chunk : Bytes) (c : Connection) :
    c.written <+: (x.receive rounds chunk c).1.written := by
  have h := x.written_answerAll rounds (c.receive chunk).1 (c.receive chunk).2
  rwa [Connection.receive, Connection.written_nextAll, Connection.written_arrive] at h

theorem written_peerDone (x : Exchange σ) (rounds : Nat) (c : Connection) :
    c.written <+: (x.peerDone rounds c).1.written := by
  have h := x.written_answerAll rounds c.peerDone.1 c.peerDone.2
  rwa [Connection.peerDone, Connection.written_nextAllAtEnd] at h

end Exchange

/-! ### The connections of a server -/

namespace Listener

/-- Only a connection that is accepted gets a slot. -/
theorem mem_serving_of_step {l : Listener} {e : Event} {number : Nat}
    (h : number ∈ (l.step e).serving) :
    number ∈ l.serving ∨ number = l.metrics.accepted := by
  cases e with
  | accepted =>
    simp only [step, accept] at h
    split at h
    · rcases List.mem_append.mp h with h | h
      · exact .inl h
      · exact .inr (List.mem_singleton.mp h)
    · exact .inl h
  | ended connection ending =>
    simp only [step, finish] at h
    split at h
    · exact .inl (List.mem_of_mem_erase h)
    · exact .inl h
  | aborted connection =>
    simp only [step, abort] at h
    split at h
    · exact .inl (List.mem_of_mem_erase h)
    · exact .inl h
  | permitTaken | acceptFailed | pauseOver | joinNext | shutdown =>
    refine .inl ?_
    simp only [step, takePermit, Listener.acceptFailed, endPause, Listener.joinNext, stop] at h
    split at h <;> exact h

theorem accepted_le_step (l : Listener) (e : Event) :
    l.metrics.accepted ≤ (l.step e).metrics.accepted := by
  cases e with
  | accepted =>
    simp only [step, accept]
    split
    · exact Nat.le_succ _
    · exact Nat.le_refl _
  | ended connection ending =>
    simp only [step, finish]
    split
    · split <;> exact Nat.le_refl _
    · exact Nat.le_refl _
  | permitTaken | acceptFailed | pauseOver | joinNext | shutdown | aborted =>
    simp only [step, takePermit, Listener.acceptFailed, endPause, Listener.joinNext, stop, abort]
    split <;> exact Nat.le_refl _

theorem Sound.lt_accepted {limit : Nat} {l : Listener} (h : l.Sound limit) {number : Nat}
    (hnumber : number ∈ l.serving) : number < l.metrics.accepted := by
  have hmem := h.numbered.mem_iff.mp (List.mem_append_left _ (List.mem_append_left _ hnumber))
  exact List.mem_range.mp hmem

end Listener

namespace Server

variable {σ : Type} {slots : Nat} {s : Server σ}

/-- The slots add up, and the connections are those that have one. -/
structure Sound (slots : Nat) (s : Server σ) : Prop where
  listener : s.listener.Sound slots
  numbers : s.connections.map Prod.fst = s.listener.serving

theorem sound_new (rounds limit maxConnections : Nat) (exchange : Exchange σ) :
    (new rounds limit maxConnections exchange).Sound (max 1 maxConnections) :=
  ⟨.new maxConnections, rfl⟩

theorem Sound.mem_serving_iff (h : s.Sound slots) {number : Nat} :
    number ∈ s.listener.serving ↔ (s.connection? number).isSome := by
  rw [← h.numbers]
  exact Keyed.lookup_isSome_iff.symm

/-! ### What becomes of a connection -/

theorem connection?_tell (s : Server σ) (e : Listener.Event) (number : Nat) :
    (s.tell e).connection? number =
      if number ∈ (s.listener.step e).serving then
        some ((s.connection? number).getD (.new s.limit))
      else none :=
  Keyed.lookup_map_pair _ _ _

theorem connection?_advance (s : Server σ) (number : Nat)
    (go : Exchange σ → Connection → Connection × Exchange σ) (other : Nat) :
    (s.advance number go).connection? other =
      if other = number then (s.connection? number).map fun c => (go s.exchange c).1
      else s.connection? other := by
  rw [advance]
  cases hc : s.connection? number with
  | none =>
    by_cases hother : other = number
    · rw [if_pos hother, hother]
      exact hc
    · rw [if_neg hother]
  | some c =>
    refine (Keyed.lookup_map_put _ _ _ _).trans ?_
    show (if other = number then (s.connection? number).map _ else s.connection? other) = _
    rw [hc]
    rfl

theorem listener_advance (s : Server σ) (number : Nat)
    (go : Exchange σ → Connection → Connection × Exchange σ) :
    (s.advance number go).listener = s.listener := by
  rw [advance]
  split <;> rfl

/-- A connection that is accepted is new. -/
theorem connection?_tell_accepted (h : s.Sound slots) (hstage : s.listener.stage = .listening) :
    (s.tell .accepted).connection? s.listener.metrics.accepted = some (.new s.limit) := by
  have hserving : s.listener.metrics.accepted ∈ (s.listener.step .accepted).serving := by
    simp only [Listener.step, Listener.accept, hstage]
    exact List.mem_append_right _ List.mem_cons_self
  have hnew : s.connection? s.listener.metrics.accepted = none := by
    rw [← Option.not_isSome_iff_eq_none, ← h.mem_serving_iff]
    exact fun hmem => Nat.lt_irrefl _ (h.listener.lt_accepted hmem)
  rw [connection?_tell, if_pos hserving, hnew]
  rfl

/-! ### Every event keeps a server sound -/

theorem Sound.tell (h : s.Sound slots) (e : Listener.Event) : (s.tell e).Sound slots where
  listener := h.listener.step e
  numbers := by
    show (List.map _ (s.listener.step e).serving).map Prod.fst = (s.listener.step e).serving
    rw [List.map_map]
    exact List.map_id _

theorem Sound.advance (h : s.Sound slots) (number : Nat)
    (go : Exchange σ → Connection → Connection × Exchange σ) :
    (s.advance number go).Sound slots := by
  rw [Server.advance]
  split
  · exact h
  · refine ⟨h.listener, ?_⟩
    rw [← h.numbers, List.map_map]
    refine List.map_congr_left fun p _ => ?_
    show (if p.1 = number then _ else p).1 = p.1
    split
    · rename_i hp
      exact hp.symm
    · rfl

variable [Platform.Client σ]

/-- **Every event keeps a server sound.** -/
theorem Sound.step (h : s.Sound slots) (e : Event) : (s.step e).Sound slots := by
  cases e with
  | slots e => exact h.tell e
  | arrive number chunk =>
    rw [Server.step]
    exact h.advance number _
  | peerDone number =>
    rw [Server.step]
    exact h.advance number _

theorem Sound.run (h : s.Sound slots) (es : List Event) : (s.run es).Sound slots := by
  induction es generalizing s with
  | nil => exact h
  | cons e es ih => exact ih (h.step e)

/-- A connection that is there was there before the event if its number had been given out, and it
has only written more. -/
theorem Sound.exists_of_step (h : s.Sound slots) {e : Event} {number : Nat} {c' : Connection}
    (hnumber : number < s.listener.metrics.accepted)
    (hc' : (s.step e).connection? number = some c') :
    ∃ c, s.connection? number = some c ∧ c.written <+: c'.written := by
  have hadvance : ∀ (k : Nat) (go : Exchange σ → Connection → Connection × Exchange σ),
      (∀ x c, c.written <+: (go x c).1.written) →
      (s.advance k go).connection? number = some c' →
      ∃ c, s.connection? number = some c ∧ c.written <+: c'.written := by
    intro k go hgo hc'
    rw [connection?_advance] at hc'
    split at hc'
    · rename_i hk
      obtain ⟨c, hc, rfl⟩ := Option.map_eq_some_iff.mp hc'
      exact ⟨c, hk ▸ hc, hgo _ c⟩
    · exact ⟨c', hc', List.prefix_rfl⟩
  cases e with
  | slots e =>
    rw [Server.step, connection?_tell] at hc'
    split at hc'
    · rename_i hserving
      rcases Listener.mem_serving_of_step hserving with hserving | hlast
      · obtain ⟨c, hc⟩ := Option.isSome_iff_exists.mp (h.mem_serving_iff.mp hserving)
        rw [hc] at hc'
        exact ⟨c, hc, Option.some.inj hc' ▸ List.prefix_rfl⟩
      · exact absurd (hlast ▸ hnumber) (Nat.lt_irrefl _)
    · exact absurd hc' nofun
  | arrive k chunk => exact hadvance k _ (fun x c => x.written_receive _ chunk c) hc'
  | peerDone k => exact hadvance k _ (fun x c => x.written_peerDone _ c) hc'

/-! ### The slots of a server -/

/-- What happens to the slots in an event. -/
def Event.slots? : Event → Option Listener.Event
  | .slots e => some e
  | .arrive _ _ | .peerDone _ => none

/-- The connection over which something comes in an event. -/
def Event.connection? : Event → Option Nat
  | .slots _ => none
  | .arrive number _ | .peerDone number => some number

theorem listener_step (s : Server σ) (e : Event) :
    (s.step e).listener = e.slots?.elim s.listener s.listener.step := by
  cases e with
  | slots e => rfl
  | arrive number chunk => exact s.listener_advance number _
  | peerDone number => exact s.listener_advance number _

theorem listener_run (s : Server σ) (es : List Event) :
    (s.run es).listener = s.listener.run (es.filterMap Event.slots?) := by
  induction es generalizing s with
  | nil => rfl
  | cons e es ih =>
    refine (ih (s.step e)).trans ?_
    rw [listener_step, List.filterMap_cons]
    cases e.slots? <;> rfl

theorem accepted_le_step (s : Server σ) (e : Event) :
    s.listener.metrics.accepted ≤ (s.step e).listener.metrics.accepted := by
  rw [listener_step]
  cases e.slots? with
  | none => exact Nat.le_refl _
  | some e => exact s.listener.accepted_le_step e

/-- A connection that keeps its slot stays as it is when something comes over another one. -/
theorem Sound.connection?_step_of_ne (h : s.Sound slots) {e : Event} {number : Nat}
    (hserving : number ∈ s.listener.serving) (hstays : number ∈ (s.step e).listener.serving)
    (hother : e.connection? ≠ some number) :
    (s.step e).connection? number = s.connection? number := by
  have hadvance : ∀ (k : Nat) (go : Exchange σ → Connection → Connection × Exchange σ),
      k ≠ number → (s.advance k go).connection? number = s.connection? number := by
    intro k go hk
    rw [connection?_advance, if_neg (Ne.symm hk)]
  cases e with
  | slots e =>
    obtain ⟨c, hc⟩ := Option.isSome_iff_exists.mp (h.mem_serving_iff.mp hserving)
    refine (s.connection?_tell e number).trans ((if_pos hstays).trans ?_)
    rw [hc]
    rfl
  | arrive k chunk => exact hadvance k _ fun hk => hother (congrArg some hk)
  | peerDone k => exact hadvance k _ fun hk => hother (congrArg some hk)

/-- **The connections of a server are those that have slots.** The slots do not depend on what comes
over the connections. A connection is there as long as it has its slot, so there are never more
connections than slots. It is new when its peer is accepted, and it does not change when something
comes over another one or another one ends. -/
theorem connections_have_slots (rounds limit maxConnections : Nat) (exchange : Exchange σ)
    (es : List Event) :
    let s := (new rounds limit maxConnections exchange).run es
    s.listener = (Listener.new maxConnections).run (es.filterMap Event.slots?) ∧
      (∀ number, (s.connection? number).isSome ↔ number ∈ s.listener.serving) ∧
      s.connections.length ≤ max 1 maxConnections ∧
      (s.listener.stage = .listening →
        (s.step (.slots .accepted)).connection? s.listener.metrics.accepted =
          some (.new s.limit)) ∧
      ∀ e number, number ∈ s.listener.serving → number ∈ (s.step e).listener.serving →
        e.connection? ≠ some number → (s.step e).connection? number = s.connection? number := by
  intro s
  have h : s.Sound (max 1 maxConnections) :=
    (sound_new rounds limit maxConnections exchange).run es
  refine ⟨listener_run _ es, fun number => h.mem_serving_iff.symm, ?_,
    connection?_tell_accepted h, fun e number => h.connection?_step_of_ne⟩
  have hpermits := h.listener.permits
  have hlength : s.connections.length = s.listener.serving.length := by
    rw [← h.numbers, List.length_map]
  omega

end Server

end Rpc

end PlatformProxy
