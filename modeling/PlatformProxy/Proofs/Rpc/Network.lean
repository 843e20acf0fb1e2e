import PlatformProxy.Proofs.Frame.Hearing
import PlatformProxy.Proofs.Rpc.Server
import PlatformProxy.Rpc.Network

/-!
# Peers hear their own connections

A server has many peers, and each of them calls as if it were alone. What may be mixed up is which
peer hears what. Every peer hears what its own connection has written, all of it and in order,
whatever the other peers do and however their connections end.

## Main definitions

* `Rpc.Peer.Hears` — a peer has heard its own connection
* `Rpc.Network.Sound` — a server and its peers

## Main results

* `Rpc.Network.Sound.step`, `Rpc.Network.Sound.run` — every event keeps a network sound
* `Rpc.Network.exists_run_of_settle` — a network that is left alone runs
* `Rpc.Network.peers_hear_their_own_connections` — what a peer has heard at any time
-/

namespace PlatformProxy

namespace Rpc

/-! ### The calling side -/

/-- Listening does not decide whether more will come. -/
theorem Caller.isDone_listen {α : Type} [Json.Shaped α] (fuel : Nat) (c : Caller) :
    (c.listen fuel : Option (Except CallError α) × Caller).2.incoming.isDone =
      c.incoming.isDone := by
  induction fuel generalizing c with
  | zero => rfl
  | succ fuel ih =>
    have hnext := Frame.Incoming.isDone_next c.incoming
    rw [listen]
    split <;> rename_i hc <;> rw [hc] at hnext
    · exact hnext
    · exact hnext
    · exact hnext
    · dsimp only
      split
      · exact hnext
      · exact (ih _).trans hnext

theorem Line.isDone_step_arrive (l : Line) (chunk : Bytes) :
    (l.step (.arrive chunk)).isDone = l.isDone := by
  rw [step]
  split
  · rfl
  · show (l.caller.incoming.arrive chunk).isDone = l.caller.incoming.isDone
    rw [Frame.Incoming.arrive]
    split <;> rfl

theorem Line.input_step_arrive {l : Line} (h : l.isDone = false) (chunk : Bytes) :
    (l.step (.arrive chunk)).input = l.input ++ chunk := by
  rw [step, h]
  rfl

theorem Line.isDone_step_listen (l : Line) : (l.step .listen).isDone = l.isDone := by
  rw [step]
  split
  · rfl
  · split
    · rfl
    · exact Caller.isDone_listen _ _

theorem Line.input_step_listen (l : Line) : (l.step .listen).input = l.input := by
  rw [step]
  split
  · rfl
  · split <;> rfl

/-! ### What a peer hears -/

namespace Peer

variable {σ : Type} {slots : Nat} {s : Server σ} {p q : Peer}

/-- A peer that is not accepted has heard nothing, and one whose connection is there has heard what
was written on it. -/
structure Hears (s : Server σ) (p : Peer) : Prop where
  before : p.number = none → p.line.input = [] ∧ p.line.isDone = false
  given : ∀ number, p.number = some number → number < s.listener.metrics.accepted
  heard : ∀ number c, p.number = some number → s.connection? number = some c →
    p.line.input = c.written ∧ p.line.isDone = false

theorem hears_new (s : Server σ) : new.Hears s where
  before _ := ⟨rfl, rfl⟩
  given _ h := absurd h nofun
  heard _ _ h := absurd h nofun

theorem Hears.of_same (h : p.Hears s) (hnumber : q.number = p.number)
    (hinput : q.line.input = p.line.input) (hdone : q.line.isDone = p.line.isDone) :
    q.Hears s := by
  refine ⟨?_, ?_, ?_⟩ <;> rw [hnumber]
  · rw [hinput, hdone]
    exact h.before
  · exact h.given
  · rw [hinput, hdone]
    exact h.heard

theorem Hears.call (h : p.Hears s) (α : Type) [Json.Shaped α] (method : String) (params : Json) :
    (p.call α method params).Hears s := by
  rw [Peer.call]
  split <;> exact h.of_same rfl rfl rfl

theorem number_call (p : Peer) (α : Type) [Json.Shaped α] (method : String) (params : Json) :
    (p.call α method params).number = p.number := by
  rw [Peer.call]
  split <;> rfl

theorem Hears.listen (h : p.Hears s) : p.listen.Hears s :=
  h.of_same rfl p.line.input_step_listen p.line.isDone_step_listen

theorem number_hear (s : Server σ) (p : Peer) : (hear s p).number = p.number := by
  rw [hear]
  split
  · rfl
  · split <;> rfl

/-- What has been written on the connection of a peer comes to it. -/
theorem Hears.of_grown {number : Nat} {c : Connection} (hnumber : p.number = some number)
    (hc : s.connection? number = some c) (hmore : p.line.input <+: c.written)
    (hopen : p.line.isDone = false) :
    (hear s p).line.input = c.written ∧ (hear s p).line.isDone = false := by
  have hhear : hear s p =
      { p with line := p.line.step (.arrive (c.written.drop p.line.input.length)) } := by
    rw [hear, hnumber]
    dsimp only
    rw [hc]
  rw [hhear]
  exact ⟨(Line.input_step_arrive hopen _).trans (List.prefix_iff_eq_append.mp hmore),
    (Line.isDone_step_arrive _ _).trans hopen⟩

/-- The peer that is accepted has a new connection. -/
theorem Hears.accepted (h : p.Hears s) (hstage : s.listener.stage = .listening)
    (hnumber : p.number = none) :
    (hear (s.tell .accepted) { p with number := some s.listener.metrics.accepted }).Hears
      (s.tell .accepted) := by
  obtain ⟨hinput, hopen⟩ := h.before hnumber
  refine ⟨?_, ?_, ?_⟩ <;> rw [number_hear]
  · exact nofun
  · rintro number ⟨rfl⟩
    show s.listener.metrics.accepted < (s.listener.step .accepted).metrics.accepted
    simp only [Listener.step, Listener.accept, hstage]
    exact Nat.lt_succ_self _
  · rintro number c ⟨rfl⟩ hc
    refine Hears.of_grown rfl hc ?_ hopen
    rw [hinput]
    exact List.nil_prefix

variable [Platform.Client σ]

/-- What an event makes a connection write comes to its peer. -/
theorem Hears.hear (h : p.Hears s) (hs : s.Sound slots) (e : Server.Event) :
    (hear (s.step e) p).Hears (s.step e) := by
  refine ⟨?_, ?_, ?_⟩ <;> rw [number_hear]
  · intro hnumber
    rw [Peer.hear, hnumber]
    exact h.before hnumber
  · intro number hnumber
    exact Nat.lt_of_lt_of_le (h.given number hnumber) (s.accepted_le_step e)
  · intro number c' hnumber hc'
    obtain ⟨c, hc, hmore⟩ := hs.exists_of_step (h.given number hnumber) hc'
    obtain ⟨hinput, hopen⟩ := h.heard number c hnumber hc
    exact Hears.of_grown hnumber hc' (hinput ▸ hmore) hopen

end Peer

/-! ### A server and its peers -/

namespace Network

variable {σ : Type} {slots : Nat} {n : Network σ}

/-- The server is sound, its peers have different connections, and each of them has heard its own
one. -/
structure Sound (slots : Nat) (n : Network σ) : Prop where
  server : n.server.Sound slots
  apart : ∀ (i j : Nat) (p q : Peer) (number : Nat), n.peers[i]? = some p →
    n.peers[j]? = some q → p.number = some number → q.number = some number → i = j
  hears : ∀ (i : Nat) (p : Peer), n.peers[i]? = some p → p.Hears n.server

/-! ### Peers by their places -/

theorem exists_of_getElem?_refresh {server : Server σ} {peers : List Peer} {i : Nat} {p : Peer}
    (hp : (refresh server peers).peers[i]? = some p) :
    ∃ q, peers[i]? = some q ∧ p = Peer.hear server q := by
  obtain ⟨q, hq, rfl⟩ := Option.map_eq_some_iff.mp ((List.getElem?_map ..).symm.trans hp)
  exact ⟨q, hq, rfl⟩

theorem exists_of_getElem?_modify {peers : List Peer} {f : Peer → Peer} {i j : Nat} {p : Peer}
    (hp : (peers.modify i f)[j]? = some p) :
    ∃ q, peers[j]? = some q ∧ p = if i = j then f q else q := by
  rw [List.getElem?_modify] at hp
  obtain ⟨q, hq, rfl⟩ := Option.map_eq_some_iff.mp hp
  exact ⟨q, hq, rfl⟩

/-! ### Every event keeps a network sound -/

namespace Sound

theorem new {server : Server σ} (h : server.Sound slots) : (Network.new server).Sound slots where
  server := h
  apart _ _ _ _ _ h := absurd h nofun
  hears _ _ h := absurd h nofun

theorem join (h : n.Sound slots) : Sound slots { n with peers := n.peers ++ [.new] } := by
  have hnew : ∀ (i : Nat) (p : Peer), (n.peers ++ [Peer.new])[i]? = some p →
      n.peers[i]? = some p ∨ p = .new := by
    intro i p hp
    rw [List.getElem?_append] at hp
    split at hp
    · exact .inl hp
    · exact .inr (List.mem_singleton.mp (List.mem_of_getElem? hp))
  refine ⟨h.server, ?_, ?_⟩
  · intro i j p q number hp hq hpn hqn
    rcases hnew i p hp with hp | rfl
    · rcases hnew j q hq with hq | rfl
      · exact h.apart i j p q number hp hq hpn hqn
      · exact absurd hqn nofun
    · exact absurd hpn nofun
  · intro i p hp
    rcases hnew i p hp with hp | rfl
    · exact h.hears i p hp
    · exact Peer.hears_new _

/-- Something that does not change what a peer has heard happens at it. -/
theorem modify (h : n.Sound slots) (i : Nat) {f : Peer → Peer}
    (hnumber : ∀ p, (f p).number = p.number)
    (hears : ∀ p, p.Hears n.server → (f p).Hears n.server) :
    Sound slots { n with peers := n.peers.modify i f } := by
  have hsame : ∀ (j : Nat) (p : Peer), (n.peers.modify i f)[j]? = some p →
      ∃ q, n.peers[j]? = some q ∧ q.number = p.number := by
    intro j p hp
    obtain ⟨q, hq, rfl⟩ := exists_of_getElem?_modify hp
    refine ⟨q, hq, ?_⟩
    split
    · exact (hnumber q).symm
    · rfl
  refine ⟨h.server, ?_, ?_⟩
  · intro j k p q number hp hq hpn hqn
    obtain ⟨p', hp', hpsame⟩ := hsame j p hp
    obtain ⟨q', hq', hqsame⟩ := hsame k q hq
    exact h.apart j k p' q' number hp' hq' (hpsame.trans hpn) (hqsame.trans hqn)
  · intro j p hp
    obtain ⟨q, hq, rfl⟩ := exists_of_getElem?_modify hp
    split
    · exact hears q (h.hears j q hq)
    · exact h.hears j q hq

variable [Platform.Client σ]

/-- The server accepts the first peer that waits. -/
theorem accept (h : n.Sound slots) : n.accept.Sound slots := by
  rw [Network.accept]
  split
  · rename_i i hstage hfound
    have hwaits : ∀ p, n.peers[i]? = some p → p.number = none := by
      intro p hp
      obtain ⟨hlength, hfirst, -⟩ := List.findIdx?_eq_some_iff_getElem.mp hfound
      obtain ⟨-, rfl⟩ := List.getElem?_eq_some_iff.mp hp
      exact Option.isNone_iff_eq_none.mp hfirst
    -- The peer has the number that is given out, and the others have smaller ones.
    have hnumber : ∀ (j : Nat) (p : Peer) (number : Nat),
        (refresh (n.server.tell .accepted) (n.peers.modify i fun p =>
          { p with number := some n.server.listener.metrics.accepted })).peers[j]? = some p →
        p.number = some number →
        (i = j ∧ number = n.server.listener.metrics.accepted) ∨
          (number < n.server.listener.metrics.accepted ∧
            ∃ q, n.peers[j]? = some q ∧ q.number = some number) := by
      intro j p number hp hpn
      obtain ⟨p', hp', rfl⟩ := exists_of_getElem?_refresh hp
      obtain ⟨q, hq, rfl⟩ := exists_of_getElem?_modify hp'
      rw [Peer.number_hear] at hpn
      split at hpn
      · rename_i hij
        exact .inl ⟨hij, (Option.some.inj hpn).symm⟩
      · exact .inr ⟨(h.hears j q hq).given number hpn, q, hq, hpn⟩
    refine ⟨h.server.tell .accepted, ?_, ?_⟩
    · intro j k p q number hp hq hpn hqn
      rcases hnumber j p number hp hpn with ⟨hij, hlast⟩ | ⟨hlt, p', hp', hpn'⟩ <;>
        rcases hnumber k q number hq hqn with ⟨hik, hlast'⟩ | ⟨hlt', q', hq', hqn'⟩
      · exact hij.symm.trans hik
      · exact absurd hlast (Nat.ne_of_lt hlt')
      · exact absurd hlast' (Nat.ne_of_lt hlt)
      · exact h.apart j k p' q' number hp' hq' hpn' hqn'
    · intro j p hp
      obtain ⟨p', hp', rfl⟩ := exists_of_getElem?_refresh hp
      obtain ⟨q, hq, rfl⟩ := exists_of_getElem?_modify hp'
      split
      · rename_i hij
        exact (h.hears j q hq).accepted hstage (hwaits q (hij ▸ hq))
      · exact (h.hears j q hq).hear h.server (.slots .accepted)
  · exact h

/-- Something happens to the server. -/
theorem refresh (h : n.Sound slots) (e : Server.Event) :
    (Network.refresh (n.server.step e) n.peers).Sound slots := by
  refine ⟨h.server.step e, ?_, ?_⟩
  · intro i j p q number hp hq hpn hqn
    obtain ⟨p', hp', rfl⟩ := exists_of_getElem?_refresh hp
    obtain ⟨q', hq', rfl⟩ := exists_of_getElem?_refresh hq
    rw [Peer.number_hear] at hpn hqn
    exact h.apart i j p' q' number hp' hq' hpn hqn
  · intro i p hp
    obtain ⟨p', hp', rfl⟩ := exists_of_getElem?_refresh hp
    exact (h.hears i p' hp').hear h.server e

/-- The server takes what a peer has sent next. -/
theorem take (h : n.Sound slots) (peer : Nat) : (n.take peer).Sound slots := by
  rw [Network.take]
  split
  · rename_i number parcel rest _
    have hrest := h.modify peer (f := fun p => { p with underway := rest }) (fun _ => rfl)
      fun _ hp => hp.of_same rfl rfl rfl
    exact hrest.refresh (parcel.event number)
  · exact h

/-- **Every event keeps a network sound.** -/
theorem step (h : n.Sound slots) (e : Event) : (n.step e).Sound slots := by
  cases e with
  | join => exact h.join
  | call peer α method params =>
    exact h.modify peer (fun p => p.number_call α method params) fun _ hp => hp.call α method params
  | listen peer => exact h.modify peer (fun _ => rfl) fun _ hp => hp.listen
  | post peer parcel => exact h.modify peer (fun _ => rfl) fun _ hp => hp.of_same rfl rfl rfl
  | accept => exact h.accept
  | take peer => exact h.take peer
  | slots e => exact h.refresh (.slots e)

theorem run (h : n.Sound slots) (es : List Event) : (n.run es).Sound slots := by
  induction es generalizing n with
  | nil => exact h
  | cons e es ih => exact ih (h.step e)

end Sound

variable [Platform.Client σ]

theorem exists_run_of_settle (fuel : Nat) (n : Network σ) : ∃ es, n.settle fuel = n.run es := by
  induction fuel generalizing n with
  | zero => exact ⟨[], rfl⟩
  | succ fuel ih =>
    rw [settle]
    split
    · exact ⟨[], rfl⟩
    · rename_i e _
      obtain ⟨es, hes⟩ := ih (n.step e)
      exact ⟨e :: es, hes⟩

/-- **Peers hear their own connections.** Whatever has happened in a network, two peers never have
the same connection. A peer that waits to be accepted has heard nothing. A peer whose connection is
open has heard all that was written on it, in order, and nothing else, and has not heard the end. -/
theorem peers_hear_their_own_connections (rounds limit maxConnections : Nat)
    (exchange : Exchange σ) (es : List Event) :
    let n := (new (.new rounds limit maxConnections exchange)).run es
    (∀ (i j : Nat) (p q : Peer) (number : Nat), n.peers[i]? = some p → n.peers[j]? = some q →
        p.number = some number → q.number = some number → i = j) ∧
      (∀ p ∈ n.peers, p.number = none → p.line.input = []) ∧
      ∀ p ∈ n.peers, ∀ number c, p.number = some number →
        n.server.connection? number = some c →
        p.line.input = c.written ∧ p.line.isDone = false := by
  intro n
  have h : n.Sound (max 1 maxConnections) :=
    (Sound.new (Server.sound_new rounds limit maxConnections exchange)).run es
  refine ⟨h.apart, ?_, ?_⟩
  · intro p hp hnumber
    obtain ⟨i, hi⟩ := List.getElem?_of_mem hp
    exact ((h.hears i p hi).before hnumber).1
  · intro p hp number c hnumber hc
    obtain ⟨i, hi⟩ := List.getElem?_of_mem hp
    exact (h.hears i p hi).heard number c hnumber hc

end Network

end Rpc

end PlatformProxy
