import PlatformProxy.Proofs.Session.Loop

/-!
# Whose query it is

A ticket is all that ties a query to its command. Here it is shown that the tie holds: what waits
or has been resolved under a ticket is what the steps of the query of that command lead to. The
client may give any answers on the way.

## Main definitions

* `Session.Command.LeadsTo` — what the steps of the query of a command may lead to
* `Session.Origins` — the tickets of a session stand for its commands

## Main results

* `Session.Origins.run` — every run keeps them so
-/

namespace PlatformProxy

namespace Session

open Platform

variable {σ : Type}

/-- What the steps of the query of a command may lead to, in states of the client that are
arbitrary each time. -/
inductive Command.LeadsTo (σ : Type) [Client σ] (scope : Query.Scope) (command : Command) :
    Progress → Prop
  | start (c : σ) : LeadsTo σ scope command ((command.start scope).run c).1
  | advance {call : CallRef} {task : Task} (h : LeadsTo σ scope command (.await call task))
      (completion : Completion) (c : σ) :
      LeadsTo σ scope command ((task.advance completion).run c).1

variable [Client σ]

/-- What stands under a ticket belongs to the command of that ticket. -/
structure Origins (s : Session σ) (scope : Query.Scope) (commands : List Command) : Prop where
  sameScope : s.scope = scope
  queue : ∀ q ∈ s.queue, commands[q.1]? = some q.2
  pending : ∀ p ∈ s.pending, ∃ command, commands[p.2.ticket]? = some command ∧
    command.LeadsTo σ scope (.await p.1 p.2.task)
  outcomes : ∀ o ∈ s.outcomes, o.2 ≠ .error .closed → ∃ command, commands[o.1]? = some command ∧
    command.LeadsTo σ scope (.done o.2)

namespace Origins

variable {s : Session σ} {scope : Query.Scope} {commands : List Command}

theorem of_nil (hqueue : s.queue = []) (hpending : s.pending = []) (houtcomes : s.outcomes = []) :
    s.Origins s.scope commands := by
  refine ⟨rfl, ?_, ?_, ?_⟩
  · simp [hqueue]
  · simp [hpending]
  · simp [houtcomes]

theorem mono (h : s.Origins scope commands) (more : List Command) :
    s.Origins scope (commands ++ more) := by
  refine ⟨h.sameScope, fun q hq => ?_, fun p hp => ?_, fun o ho hclosed => ?_⟩
  · exact Keyed.getElem?_append_of_eq_some (h.queue q hq) more
  · obtain ⟨command, hcommand, hleads⟩ := h.pending p hp
    exact ⟨command, Keyed.getElem?_append_of_eq_some hcommand more, hleads⟩
  · obtain ⟨command, hcommand, hleads⟩ := h.outcomes o ho hclosed
    exact ⟨command, Keyed.getElem?_append_of_eq_some hcommand more, hleads⟩

/-- Filing closures needs no origin. -/
theorem abandon (h : s.Origins scope commands) (tickets : List Ticket) :
    (s.abandon tickets).Origins scope commands := by
  rw [abandon_eq]
  refine ⟨h.sameScope, h.queue, h.pending, fun o ho hclosed => ?_⟩
  rcases List.mem_append.mp ho with ho | ho
  · exact h.outcomes o ho hclosed
  · obtain ⟨t, -, rfl⟩ := List.mem_map.mp ho
    exact absurd rfl hclosed

theorem apply {m : Move σ} (h : m.session.Origins scope commands) {command : Command}
    (hcommand : commands[m.ticket]? = some command)
    (hleads : command.LeadsTo σ scope m.progress) : m.apply.Origins scope commands := by
  cases hm : m.progress with
  | await call task =>
    rw [Move.apply_await hm]
    rw [hm] at hleads
    have habandon := h.abandon ((m.session.pending.filter fun q => q.1 = call).map fun q =>
      q.2.ticket)
    refine ⟨habandon.sameScope, habandon.queue, fun p hp => ?_, habandon.outcomes⟩
    rcases List.mem_cons.mp hp with rfl | hp
    · exact ⟨command, hcommand, hleads⟩
    · exact habandon.pending p (List.mem_of_mem_filter hp)
  | done outcome =>
    rw [Move.apply_done hm]
    rw [hm] at hleads
    refine ⟨h.sameScope, h.queue, h.pending, fun o ho hclosed => ?_⟩
    rcases List.mem_append.mp ho with ho | ho
    · exact h.outcomes o ho hclosed
    · rw [List.mem_singleton.mp ho]
      exact ⟨command, hcommand, hleads⟩

theorem begin (h : s.Origins scope commands) {m : Move σ} (hm : s.begin? = some m) :
    m.apply.Origins scope commands := by
  obtain ⟨ticket, command, queue, hq, rfl⟩ := exists_of_begin? hm
  have hqueue := h.queue
  rw [hq] at hqueue
  have hsession : (⟨{ s with queue, client := ((command.start s.scope).run s.client).2 }, ticket,
      ((command.start s.scope).run s.client).1⟩ : Move σ).session.Origins scope commands :=
    ⟨h.sameScope, fun q hq => hqueue q (List.mem_cons_of_mem _ hq), h.pending, h.outcomes⟩
  refine hsession.apply (hqueue _ List.mem_cons_self) ?_
  rw [h.sameScope]
  exact .start _

theorem resume (h : s.Origins scope commands) {call : CallRef} {completion : Completion}
    {m : Move σ} (hm : s.resume? call completion = some m) : m.apply.Origins scope commands := by
  obtain ⟨p, hp, rfl⟩ := exists_of_resume? hm
  obtain ⟨command, hcommand, hleads⟩ := h.pending _ hp
  have hsession : (⟨{ s with
        pending := s.pending.filter fun p => p.1 ≠ call
        client := ((p.task.advance completion).run s.client).2 }, p.ticket,
      ((p.task.advance completion).run s.client).1⟩ : Move σ).session.Origins scope commands :=
    ⟨h.sameScope, h.queue, fun q hq => h.pending q (List.mem_of_mem_filter hq), h.outcomes⟩
  exact hsession.apply hcommand (hleads.advance completion _)

theorem dropNext (h : s.Origins scope commands) : s.dropNext.Origins scope commands := by
  match hq : s.queue with
  | [] => rwa [Session.dropNext, hq]
  | (ticket, command) :: queue =>
    have hdropped := h.abandon [ticket]
    rw [abandon_eq] at hdropped
    rw [dropNext_cons hq]
    refine ⟨hdropped.sameScope, fun q hmem => h.queue q ?_, hdropped.pending, hdropped.outcomes⟩
    rw [hq]
    exact List.mem_cons_of_mem _ hmem

theorem tearDown (h : s.Origins scope commands) : s.tearDown.Origins scope commands := by
  have habandon := h.abandon (s.pending.map fun p => p.2.ticket)
  rw [abandon_eq, List.map_map] at habandon
  rw [tearDown_eq]
  exact ⟨habandon.sameScope, habandon.queue, fun p hp => absurd hp List.not_mem_nil,
    habandon.outcomes⟩

theorem send (h : s.Origins scope commands) (hcount : s.nextTicket = commands.length)
    (command : Command) : (s.send command).2.Origins scope (commands ++ [command]) := by
  have hmono := h.mono [command]
  cases hr : s.isRunning with
  | true =>
    rw [send_of_isRunning hr]
    refine ⟨hmono.sameScope, fun q hq => ?_, hmono.pending, hmono.outcomes⟩
    rcases List.mem_append.mp hq with hq | hq
    · exact hmono.queue q hq
    · rw [List.mem_singleton.mp hq, hcount, List.getElem?_concat_length]
  | false =>
    have hrefused := hmono.abandon [s.nextTicket]
    rw [abandon_eq] at hrefused
    rw [send_of_not_isRunning hr]
    exact ⟨hrefused.sameScope, hrefused.queue, hrefused.pending, hrefused.outcomes⟩

/-- **An event keeps what stands under a ticket with the command of that ticket.** -/
theorem step {l : Loop σ} (h : l.session.Origins scope commands)
    (hcount : l.session.nextTicket = commands.length) (e : Loop.Event) :
    (l.step e).session.Origins scope (commands ++ Loop.sent [e]) := by
  have hmono := h.mono (Loop.sent [e])
  cases hm : l.move? e with
  | some m =>
    rw [Loop.session_step_of_move? hm]
    rcases (Loop.exists_of_move? hm).2 with hm | ⟨call, completion, hm⟩
    · exact hmono.begin hm
    · have hcounted : l.session.countDispatched.Origins scope (commands ++ Loop.sent [e]) :=
        ⟨hmono.sameScope, hmono.queue, hmono.pending, hmono.outcomes⟩
      exact hcounted.resume hm
  | none =>
    rcases Loop.session_step_of_move?_eq_none hm with
      hs | hs | ⟨command, rfl, hs⟩ | ⟨-, hs⟩ | hs | ⟨-, hs⟩ | ⟨-, hs⟩ <;> rw [hs]
    · exact hmono
    · exact ⟨hmono.sameScope, hmono.queue, hmono.pending, hmono.outcomes⟩
    · exact h.send hcount command
    · exact ⟨hmono.sameScope, hmono.queue, hmono.pending, hmono.outcomes⟩
    · exact ⟨hmono.sameScope, hmono.queue, hmono.pending, hmono.outcomes⟩
    · exact hmono.dropNext
    · exact hmono.tearDown

theorem run {l : Loop σ} (h : l.session.Origins scope commands)
    (hcount : l.session.nextTicket = commands.length) (es : List Loop.Event) :
    (l.run es).session.Origins scope (commands ++ Loop.sent es) := by
  induction es generalizing l commands with
  | nil => exact h.mono []
  | cons e es ih =>
    have hsent : Loop.sent (e :: es) = Loop.sent [e] ++ Loop.sent es := Loop.sent_append [e] es
    have hcount' : (l.step e).session.nextTicket = (commands ++ Loop.sent [e]).length := by
      rw [Loop.nextTicket_step, hcount, List.length_append]
    rw [Loop.run_cons, hsent, ← List.append_assoc]
    exact ih (h.step hcount e) hcount'

end Origins

end Session

end PlatformProxy
