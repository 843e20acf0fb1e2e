import Mathlib.Data.List.Perm.Basic
import Mathlib.Data.List.Range
import PlatformProxy.Rpc.Listener

/-!
# Connection slots are never lost

A permit changes hands. It is free, the accepting loop takes it, an accepted connection carries it
along, and it has to come back on every way out: when a connection is over, with whatever ending,
when a peer could not be accepted, when the loop stops with a permit in hand, and when an open
connection is cut off. A slot that is lost on one of these ways is not missed until all of them
are lost, so no run of a few connections shows that none is.

Three sums are kept by every event. They are about the permits, about the numbers of the
connections, and about the connections that ended badly. What a server promises at any time is read
off them.

## Main definitions

* `Rpc.Listener.Sound` — the three sums
* `Rpc.Ending.isBad` — a connection did not end as it should

## Main results

* `Rpc.Listener.Sound.step`, `Rpc.Listener.Sound.run` — every event keeps them, and so does a run
* `Rpc.Listener.slots_are_never_lost` — what holds in every state that a server can reach
-/

namespace PlatformProxy

namespace Rpc

/-- A connection did not end as it should. -/
def Ending.isBad : Ending → Bool
  | clean => false
  | failed | panicked => true

namespace Listener

/-- The connections that ended badly. -/
def badlyEnded (l : Listener) : List (Nat × Ending) := l.ended.filter fun e => e.2.isBad

/-- Permits, connections and errors add up. An error that has not been counted belongs to a task
that the loop has still to look at. -/
structure Sound (limit : Nat) (l : Listener) : Prop where
  permits : l.serving.length + l.stage.permits + l.free = limit
  numbered : (l.serving ++ l.ended.map Prod.fst ++ l.aborted).Perm (List.range l.metrics.accepted)
  errors : l.metrics.connectionErrors + l.unjoined.count .panicked = l.badlyEnded.length

namespace Sound

variable {limit : Nat} {l : Listener}

theorem new (maxConnections : Nat) : (Listener.new maxConnections).Sound (max 1 maxConnections) :=
  ⟨Nat.zero_add _, .refl _, rfl⟩

/-! ### The loop -/

theorem takePermit (h : l.Sound limit) : l.takePermit.Sound limit := by
  have hpermits := h.permits
  rw [Listener.takePermit]
  split
  · rename_i free hstage hfree
    refine ⟨?_, h.numbered, h.errors⟩
    rw [hstage, hfree] at hpermits
    exact (Nat.add_right_comm _ 1 free).trans hpermits
  · exact h

theorem accept (h : l.Sound limit) : l.accept.Sound limit := by
  have hpermits := h.permits
  rw [Listener.accept]
  split
  · rename_i hstage
    refine ⟨?_, ?_, h.errors⟩
    · rw [hstage] at hpermits
      simpa [Stage.permits] using hpermits
    · -- The new connection has the next number.
      show (l.serving ++ [l.metrics.accepted] ++ l.ended.map Prod.fst ++ l.aborted).Perm
        (List.range (l.metrics.accepted + 1))
      have hnumbered := h.numbered
      rw [List.append_assoc] at hnumbered
      rw [List.range_succ, List.append_assoc, List.append_assoc, List.singleton_append]
      exact List.perm_middle.trans ((hnumbered.cons _).trans (List.perm_append_singleton _ _).symm)
  · exact h

theorem acceptFailed (h : l.Sound limit) : l.acceptFailed.Sound limit := by
  have hpermits := h.permits
  rw [Listener.acceptFailed]
  split
  · rename_i hstage
    rw [hstage] at hpermits
    exact ⟨hpermits, h.numbered, h.errors⟩
  · exact h

theorem endPause (h : l.Sound limit) : l.endPause.Sound limit := by
  have hpermits := h.permits
  rw [Listener.endPause]
  split
  · rename_i hstage
    rw [hstage] at hpermits
    exact ⟨(Nat.add_right_comm _ l.free 1).trans hpermits, h.numbered, h.errors⟩
  · exact h

theorem joinNext (h : l.Sound limit) : l.joinNext.Sound limit := by
  have hpermits := h.permits
  have herrors := h.errors
  rw [Listener.joinNext]
  split
  · rename_i hstage _
    rw [hstage] at hpermits
    exact ⟨hpermits, h.numbered, herrors⟩
  · rename_i hstage hunjoined
    refine ⟨hpermits, h.numbered, ?_⟩
    rw [hunjoined, List.count_cons_self] at herrors
    exact (Nat.add_right_comm _ 1 _).trans herrors
  · rename_i hending hstage hunjoined
    refine ⟨hpermits, h.numbered, ?_⟩
    rw [hunjoined, List.count_cons_of_ne hending] at herrors
    exact herrors
  · exact h

theorem stop (h : l.Sound limit) : l.stop.Sound limit := by
  have hpermits := h.permits
  rw [Listener.stop]
  split
  case h_3 => exact h
  all_goals
    rename_i hstage
    refine ⟨?_, h.numbered, h.errors⟩
    rw [hstage] at hpermits ⊢
    simp only [Stage.permits] at hpermits ⊢
    omega

/-! ### The connections -/

/-- A connection that is no longer open gives one permit back. -/
theorem permits_erase (h : l.Sound limit) {connection : Nat} (hopen : connection ∈ l.serving) :
    (l.serving.erase connection).length + l.stage.permits + (l.free + 1) = limit := by
  have hpermits := h.permits
  have hlength := List.length_erase_add_one hopen
  omega

/-- A connection that is no longer open still has its number. -/
theorem numbered_erase (h : l.Sound limit) {connection : Nat} (hopen : connection ∈ l.serving) :
    (connection :: (l.serving.erase connection ++ (l.ended.map Prod.fst ++ l.aborted))).Perm
      (List.range l.metrics.accepted) := by
  have hnumbered := h.numbered
  rw [List.append_assoc] at hnumbered
  exact ((List.perm_cons_erase hopen).symm.append_right _).trans hnumbered

theorem finish (h : l.Sound limit) (connection : Nat) (ending : Ending) :
    (l.finish connection ending).Sound limit := by
  have herrors := h.errors
  rw [badlyEnded] at herrors
  rw [Listener.finish]
  split
  · rename_i hopen
    refine ⟨h.permits_erase hopen, ?_, ?_⟩
    · have haccepted : (if ending = .failed then l.metrics.countConnectionError
          else l.metrics).accepted = l.metrics.accepted := by split <;> rfl
      show (l.serving.erase connection ++ (connection :: l.ended.map Prod.fst) ++ l.aborted).Perm
        (List.range _)
      rw [haccepted, List.append_assoc, List.cons_append]
      exact List.perm_middle.trans (h.numbered_erase hopen)
    · -- A failure is counted at once, and a panic is in the list of what is to be counted.
      rw [badlyEnded, List.count_append]
      cases ending with
      | clean => exact herrors
      | failed =>
        show l.metrics.connectionErrors + 1 + l.unjoined.count .panicked = _ + 1
        rw [← herrors, Nat.add_right_comm]
      | panicked => exact congrArg (· + 1) herrors
  · exact h

theorem abort (h : l.Sound limit) (connection : Nat) : (l.abort connection).Sound limit := by
  rw [Listener.abort]
  split
  · rename_i hopen
    refine ⟨h.permits_erase hopen.2, ?_, h.errors⟩
    rw [List.append_assoc]
    exact (List.perm_middle.append_left _).trans
      (List.perm_middle.trans (h.numbered_erase hopen.2))
  · exact h

/-- **Every event keeps the sums.** -/
theorem step (h : l.Sound limit) (e : Event) : (l.step e).Sound limit := by
  cases e with
  | permitTaken => exact h.takePermit
  | accepted => exact h.accept
  | acceptFailed => exact h.acceptFailed
  | pauseOver => exact h.endPause
  | joinNext => exact h.joinNext
  | ended connection ending => exact h.finish connection ending
  | shutdown => exact h.stop
  | aborted connection => exact h.abort connection

theorem run (h : l.Sound limit) (es : List Event) : (l.run es).Sound limit := by
  induction es generalizing l with
  | nil => exact h
  | cons e es ih => exact ih (h.step e)

end Sound

/-! ### What a server promises -/

/-- **No slot is ever lost.** Whatever has happened to a server, in whatever order, it serves at
most as many connections as there are slots. Every slot has its permit, which an open connection has
or the loop has or nobody has; so the loop can take one whenever it waits and not all slots are in
use. Every accepted connection is open, over or cut off, and is counted once. No more errors are
counted than connections ended badly. -/
theorem slots_are_never_lost (maxConnections : Nat) (es : List Event) :
    let l := (Listener.new maxConnections).run es
    let slots := max 1 maxConnections
    l.serving.length ≤ slots ∧
      l.serving.length + l.stage.permits + l.free = slots ∧
      (l.stage = .waiting → l.serving.length < slots → (l.step .permitTaken).stage = .listening) ∧
      (l.serving ++ l.ended.map Prod.fst ++ l.aborted).Nodup ∧
      l.metrics.accepted = l.serving.length + l.ended.length + l.aborted.length ∧
      l.metrics.connectionErrors ≤ (l.ended.filter fun e => e.2.isBad).length := by
  intro l slots
  have h : l.Sound slots := (Sound.new maxConnections).run es
  have hpermits := h.permits
  have herrors := h.errors
  refine ⟨by omega, hpermits, fun hstage hserving => ?_, ?_, ?_, Nat.le.intro herrors⟩
  · obtain ⟨free, hfree⟩ : ∃ free, l.free = free + 1 := by
      rw [hstage, Stage.permits] at hpermits
      exact Nat.exists_eq_add_one.mpr (by omega)
    show l.takePermit.stage = .listening
    rw [takePermit, hstage, hfree]
  · exact h.numbered.nodup_iff.mpr List.nodup_range
  · have hlength := h.numbered.length_eq
    rw [List.length_append, List.length_append, List.length_map, List.length_range] at hlength
    exact hlength.symm

/-- With one slot, a second connection is accepted once the first has broken down, which is counted
then; the third cannot be. -/
example :
    let l := (Listener.new 0).run [.permitTaken, .accepted, .joinNext, .permitTaken,
      .ended 0 .panicked, .permitTaken, .acceptFailed, .pauseOver, .permitTaken, .accepted,
      .joinNext, .joinNext, .permitTaken]
    l.serving = [1] ∧ l.stage = .waiting ∧ l.free = 0 ∧ l.metrics.connectionErrors = 1 := by
  decide

end Listener

end Rpc

end PlatformProxy
