import PlatformProxy.Proofs.Session.Loop

/-!
# The ledger of tickets

Every command gets a ticket when it arrives. From then on the ticket stands in one place: its
command is in the queue, its query waits, or its outcome has been filed. No part of the loop loses
a ticket or copies one, whatever the client does, so the tickets of a session are always those
that have been given out, each once.

## Main definitions

* `Session.tickets` — the tickets of a session, wherever they stand
* `Session.Ledger` — they are the ones that have been given out, each once

## Main results

* `Session.stable_ledger` — every part of the loop keeps the ledger
* `Session.Ledger.exists_outcome_shutdown` — after a shutdown, every ticket has its outcome
-/

namespace PlatformProxy

namespace Session

open Platform

variable {σ : Type}

/-- The tickets of a session, wherever they stand. -/
def tickets (s : Session σ) : List Ticket :=
  s.queue.map Prod.fst ++ s.pending.map (fun p => p.2.ticket) ++ s.outcomes.map Prod.fst

/-- Every ticket that has been given out stands in one place, and so does every call. -/
structure Ledger (s : Session σ) : Prop where
  calls : (s.pending.map Prod.fst).Nodup
  tickets : s.tickets.Perm (List.range s.nextTicket)

theorem Ledger.nodup {s : Session σ} (h : s.Ledger) : s.tickets.Nodup :=
  h.tickets.nodup_iff.mpr List.nodup_range

/-- Once nobody waits, every ticket has its outcome. -/
theorem Ledger.exists_outcome {s : Session σ} (h : s.Ledger) (hqueue : s.queue = [])
    (hpending : s.pending = []) {t : Ticket} (ht : t < s.nextTicket) :
    ∃ outcome, (t, outcome) ∈ s.outcomes := by
  have hmem := h.tickets.mem_iff.mpr (List.mem_range.mpr ht)
  rw [Session.tickets, hqueue, hpending, List.map_nil, List.map_nil, List.nil_append,
    List.nil_append, List.mem_map] at hmem
  obtain ⟨o, ho, rfl⟩ := hmem
  exact ⟨o.2, ho⟩

theorem Ledger.nodup_outcomes {s : Session σ} (h : s.Ledger) : (s.outcomes.map Prod.fst).Nodup :=
  h.nodup.sublist (List.sublist_append_right _ _)

theorem tickets_resolve (s : Session σ) (ticket : Ticket) (outcome : Outcome) :
    (s.resolve ticket outcome).tickets.Perm (ticket :: s.tickets) := by
  simp only [tickets, resolve, List.map_append, List.map_cons, List.map_nil, ← List.append_assoc]
  exact List.perm_append_singleton _ _

/-- A query that is dropped leaves its ticket with the outcomes. -/
theorem tickets_await (s : Session σ) (call : CallRef) (p : Pending) :
    (s.await call p).tickets.Perm (p.ticket :: s.tickets) := by
  have hsplit := (List.filter_append_perm (fun q : CallRef × Pending => q.1 = call) s.pending).map
    fun q => q.2.ticket
  rw [List.perm_iff_count] at hsplit ⊢
  intro t
  have ht := hsplit t
  simp only [tickets, await_eq, List.map_append, List.map_cons, List.map_map, Function.comp_def,
    List.count_append, List.count_cons, decide_not] at ht ⊢
  omega

theorem Move.tickets_apply (m : Move σ) :
    m.apply.tickets.Perm (m.ticket :: m.session.tickets) := by
  cases h : m.progress with
  | await call task =>
    rw [apply_await h]
    exact tickets_await m.session call ⟨m.ticket, task⟩
  | done outcome =>
    rw [apply_done h]
    exact tickets_resolve m.session m.ticket outcome

theorem Move.calls_apply {m : Move σ} (h : (m.session.pending.map Prod.fst).Nodup) :
    (m.apply.pending.map Prod.fst).Nodup := by
  cases hm : m.progress with
  | done outcome =>
    rw [apply_done hm]
    exact h
  | await call task =>
    rw [apply_await hm, await_eq]
    refine List.nodup_cons.mpr ⟨?_, Keyed.nodup_filter h _⟩
    simp

/-- A move keeps the ledger if the query's ticket is missing from the session around it. -/
theorem Move.ledger_apply {m : Move σ} (hcalls : (m.session.pending.map Prod.fst).Nodup)
    (htickets : (m.ticket :: m.session.tickets).Perm (List.range m.session.nextTicket)) :
    m.apply.Ledger := by
  refine ⟨m.calls_apply hcalls, ?_⟩
  rw [m.nextTicket_apply]
  exact m.tickets_apply.trans htickets

theorem Ledger.send {s : Session σ} (h : s.Ledger) (command : Command) :
    (s.send command).2.Ledger := by
  have hrange : (s.tickets ++ [s.nextTicket]).Perm (List.range (s.nextTicket + 1)) := by
    rw [List.range_succ]
    exact h.tickets.append_right _
  cases hr : s.isRunning with
  | true =>
    rw [send_of_isRunning hr]
    refine ⟨h.calls, List.Perm.trans ?_ hrange⟩
    simp only [Session.tickets, List.map_append, List.map_cons, List.map_nil, List.append_assoc]
    exact List.Perm.append_left _ (List.perm_append_comm.trans (by simp))
  | false =>
    rw [send_of_not_isRunning hr]
    refine ⟨h.calls, List.Perm.trans ?_ hrange⟩
    simp [Session.tickets]

theorem Ledger.dropNext {s : Session σ} (h : s.Ledger) : s.dropNext.Ledger := by
  match hq : s.queue with
  | [] => simpa [Session.dropNext, hq] using h
  | (ticket, command) :: queue =>
    rw [dropNext_cons hq]
    refine ⟨h.calls, (tickets_resolve { s with queue } ticket (.error .closed)).trans ?_⟩
    have htickets := h.tickets
    rw [Session.tickets, hq] at htickets
    exact htickets

section Client

variable [Client σ]

theorem Ledger.begin {s : Session σ} {m : Move σ} (hm : s.begin? = some m) (h : s.Ledger) :
    m.apply.Ledger := by
  obtain ⟨ticket, command, queue, hq, rfl⟩ := exists_of_begin? hm
  have htickets := h.tickets
  rw [Session.tickets, hq] at htickets
  exact Move.ledger_apply h.calls htickets

theorem Ledger.resume {s : Session σ} {call : CallRef} {completion : Completion} {m : Move σ}
    (hm : s.resume? call completion = some m) (h : s.Ledger) : m.apply.Ledger := by
  obtain ⟨p, hp, rfl⟩ := exists_of_resume? hm
  refine Move.ledger_apply (Keyed.nodup_filter h.calls _) (List.Perm.trans ?_ h.tickets)
  have hpending := (Keyed.perm_cons_filter h.calls hp).map fun q => q.2.ticket
  rw [List.perm_iff_count] at hpending ⊢
  intro t
  have ht := hpending t
  simp only [Session.tickets, List.map_cons, List.count_append, List.count_cons] at ht ⊢
  omega

theorem Ledger.tearDown {s : Session σ} (h : s.Ledger) : s.tearDown.Ledger := by
  rw [tearDown_eq]
  refine ⟨List.nodup_nil, List.Perm.trans ?_ h.tickets⟩
  simp only [Session.tickets, List.map_nil, List.append_nil, List.map_append, List.map_map,
    Function.comp_def, List.append_assoc]
  exact List.Perm.append_left _ List.perm_append_comm

/-- **Every part of the loop keeps the ledger.** -/
theorem stable_ledger : Stable (σ := σ) Ledger where
  send command h := h.send command
  begin := Ledger.begin
  resume := Ledger.resume
  countDispatched h := ⟨h.calls, h.tickets⟩
  collect h := ⟨h.calls, h.tickets⟩
  closeQueue h := ⟨h.calls, h.tickets⟩
  dropNext := Ledger.dropNext
  tearDown := Ledger.tearDown

/-- After a shutdown, every ticket has its outcome. -/
theorem Ledger.exists_outcome_shutdown {s : Session σ} (h : s.Ledger)
    (hrunning : s.isRunning = true) {t : Ticket} (ht : t < s.nextTicket) :
    ∃ outcome, (t, outcome) ∈ s.shutdown.outcomes := by
  obtain ⟨es, hsent, hrun⟩ := Loop.exists_run_shutdown hrunning
  obtain ⟨hqueue, hpending⟩ := queue_pending_shutdown hrunning
  have hledger : s.shutdown.Ledger := hrun ▸ stable_ledger.run (l := ⟨s, .accepting, true, 0⟩) h es
  have hnext := Loop.nextTicket_run ⟨s, .accepting, true, 0⟩ es
  rw [hrun, hsent] at hnext
  refine hledger.exists_outcome hqueue hpending ?_
  rw [hnext]
  exact ht

end Client

end Session

end PlatformProxy
