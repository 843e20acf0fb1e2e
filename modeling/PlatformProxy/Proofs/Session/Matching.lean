import PlatformProxy.Proofs.Platform.Calls
import PlatformProxy.Proofs.Session.Origins
import PlatformProxy.Proofs.Session.Outcomes

/-!
# A session on the simulator

Three tables and a queue have to stay in step: the queries that wait, the completions on the way
to them, and the downloads and pages that these hand over. They do: every query that waits has
one completion on the way, of the kind it waits for, every completion on the way is waited for,
and what is open is what the completions on the way name.

A completion is on the way from the call on, first in the queue of the client and then in the
batch that the loop has collected.

## Main definitions

* `Session.Matched` — the tables and the queue are in step

## Main results

* `Session.Matched.apply` — a step of a query keeps them so, and so do all events
-/

namespace PlatformProxy

namespace Session

open Platform Query

/-- What waits, what is on the way and what is open belong together. -/
structure Matched (s : Session Simulator) (w : World) (commands : List Command)
    (batch : List (CallRef × Completion)) : Prop where
  world : s.client.world = w
  started : s.isRunning = true → s.client.isStarted = true
  calls : Keyed.Holds CallRef.id s.client.lastId (batch ++ s.client.completions)
    (s.pending.map Prod.fst)
  serves : s.client.Serves ((batch ++ s.client.completions).map Prod.snd)
  leads : ∀ p ∈ s.pending, ∀ x, (p.1, x) ∈ batch ++ s.client.completions →
    ∃ command, commands[p.2.ticket]? = some command ∧
      s.client.Leads p.2.task x (w.reply s.scope command)
  outcomes : ∀ o ∈ s.outcomes, o.2 ≠ .error .closed →
    ∃ command, commands[o.1]? = some command ∧ o.2 = w.reply s.scope command

namespace Matched

variable {s : Session Simulator} {w : World} {commands : List Command}
  {batch rest : List (CallRef × Completion)}

theorem mono (h : s.Matched w commands batch) (more : List Command) :
    s.Matched w (commands ++ more) batch := by
  refine ⟨h.world, h.started, h.calls, h.serves, fun p hp x hx => ?_, fun o ho hclosed => ?_⟩
  · obtain ⟨command, hcommand, hleads⟩ := h.leads p hp x hx
    exact ⟨command, Keyed.getElem?_append_of_eq_some hcommand more, hleads⟩
  · obtain ⟨command, hcommand, hreply⟩ := h.outcomes o ho hclosed
    exact ⟨command, Keyed.getElem?_append_of_eq_some hcommand more, hreply⟩

/-- Every completion on the way is waited for. -/
theorem exists_pending (h : s.Matched w commands batch) {call : CallRef} {x : Completion}
    (hx : (call, x) ∈ batch ++ s.client.completions) : ∃ p, (call, p) ∈ s.pending := by
  have hcall := h.calls.perm.mem_iff.mp (List.mem_map_of_mem hx)
  obtain ⟨⟨call', p⟩, hp, rfl⟩ := List.mem_map.mp hcall
  exact ⟨p, hp⟩

/-- A call that is drawn now is not waited for. -/
theorem isAwaited_of_fresh (h : s.Matched w commands batch) {call : CallRef}
    (hcall : s.client.lastId < call.id) : s.isAwaited call = false := by
  rw [isAwaited_eq_false]
  rintro p hp rfl
  exact absurd (h.calls.drawn p.1 (List.mem_map_of_mem hp)) (Nat.not_le.mpr hcall)

/-- **A step of a query keeps everything matched**, and no query is dropped by it. -/
theorem apply (h : s.Matched w commands batch) {ticket : Ticket} {command : Command}
    (hcommand : commands[ticket]? = some command) {r : Progress × Simulator}
    (hr : s.client.Answers (w.reply s.scope command) r) :
    (⟨{ s with client := r.2 }, ticket, r.1⟩ : Move Simulator).isFresh = true ∧
      (⟨{ s with client := r.2 }, ticket, r.1⟩ : Move Simulator).apply.Matched w commands
        batch := by
  cases hr with
  | done =>
    refine ⟨rfl, h.world, h.started, h.calls, h.serves, h.leads, fun o ho hclosed => ?_⟩
    rcases List.mem_append.mp ho with ho | ho
    · exact h.outcomes o ho hclosed
    · rw [List.mem_singleton.mp ho]
      exact ⟨command, hcommand, rfl⟩
  | @await c' call task x hissues hleads =>
    have hawaited : ({ s with client := c' } : Session Simulator).isAwaited call = false :=
      h.isAwaited_of_fresh hissues.fresh
    have hontheway : (batch ++ c'.completions).Perm
        ((call, x) :: (batch ++ s.client.completions)) := by
      rw [hissues.completions, ← List.append_assoc]
      exact List.perm_append_singleton _ _
    have hcalls : Keyed.Holds CallRef.id c'.lastId ((call, x) :: (batch ++ s.client.completions))
        (call :: s.pending.map Prod.fst) :=
      h.calls.cons hissues.fresh (Nat.le_of_eq hissues.drawn)
    refine ⟨congrArg not hawaited, ?_⟩
    rw [Move.apply_await rfl]
    dsimp only
    rw [await_of_not_isAwaited hawaited]
    refine ⟨hissues.world.trans h.world, fun hr => hissues.isStarted.trans (h.started hr),
      hcalls.perm_table hontheway, ?_, ?_, h.outcomes⟩
    · exact (h.serves.of_issues hissues).perm (hontheway.symm.map Prod.snd)
    · intro p hp y hy
      have hy := hontheway.mem_iff.mp hy
      rcases List.mem_cons.mp hp with rfl | hp
      · -- The new query: its completion is the new one.
        have hxy := Keyed.eq_of_mem hcalls.nodup List.mem_cons_self hy rfl
        rw [(Prod.mk.inj hxy).2]
        exact ⟨command, hcommand, hleads⟩
      · rcases List.mem_cons.mp hy with hnew | hy
        · refine absurd (Prod.mk.inj hnew).1 ?_
          exact (isAwaited_eq_false.mp hawaited) p hp
        · obtain ⟨command', hcommand', hleads'⟩ := h.leads p hp y hy
          exact ⟨command', hcommand', hleads'.of_issues h.serves
            (List.mem_map_of_mem hy) hissues⟩

theorem begin (h : s.Matched w commands batch) (horigins : s.Origins s.scope commands)
    {m : Move Simulator} (hm : s.begin? = some m) :
    m.isFresh = true ∧ m.apply.Matched w commands batch := by
  obtain ⟨ticket, command, queue, hq, rfl⟩ := exists_of_begin? hm
  have hcommand : commands[ticket]? = some command :=
    horigins.queue (ticket, command) (by simp [hq])
  have hanswers := s.client.answers_start s.scope command
  rw [h.world] at hanswers
  have hqueue : ({ s with queue } : Session Simulator).Matched w commands batch :=
    ⟨h.world, h.started, h.calls, h.serves, h.leads, h.outcomes⟩
  exact hqueue.apply hcommand hanswers

/-- A completion that is taken off the way releases what it has handed over. -/
theorem take (h : s.Matched w commands batch) {call : CallRef} {x : Completion}
    (hbatch : batch.Perm ((call, x) :: rest)) :
    ({ s with
        pending := s.pending.filter fun p => p.1 ≠ call
        client := s.client.release x } : Session Simulator).Matched w commands rest := by
  have hontheway : (batch ++ s.client.completions).Perm
      ((call, x) :: (rest ++ s.client.completions)) := hbatch.append_right _
  have hmem : (call, x) ∈ batch ++ s.client.completions :=
    hontheway.mem_iff.mpr List.mem_cons_self
  obtain ⟨p, hp⟩ := h.exists_pending hmem
  have hnodup := (hontheway.map Prod.fst).nodup_iff.mp h.calls.nodup
  have hpending : (s.pending.map Prod.fst).Nodup := h.calls.nodup_keys
  have hserves : s.client.Serves (x :: (rest ++ s.client.completions).map Prod.snd) :=
    h.serves.perm (hontheway.map Prod.snd)
  have hsplit := (Keyed.perm_cons_filter hpending hp).map Prod.fst
  refine ⟨h.world, h.started, ⟨?_, (List.nodup_cons.mp hnodup).2, ?_⟩, hserves.release, ?_,
    h.outcomes⟩
  · exact (((hontheway.map Prod.fst).symm.trans h.calls.perm).trans hsplit).cons_inv
  · intro j hj
    exact h.calls.drawn j ((List.filter_sublist.map Prod.fst).subset hj)
  · intro q hq y hy
    obtain ⟨command, hcommand, hleads⟩ := h.leads q (List.mem_of_mem_filter hq) y
      (hontheway.mem_iff.mpr (List.mem_cons_of_mem _ hy))
    exact ⟨command, hcommand, hleads.of_release hserves (List.mem_map_of_mem hy)⟩

/-- A completion that is routed is the one that its query waits for. -/
theorem resume (h : s.Matched w commands batch) {call : CallRef} {x : Completion}
    (hbatch : batch.Perm ((call, x) :: rest)) {m : Move Simulator}
    (hm : s.resume? call x = some m) : m.isFresh = true ∧ m.apply.Matched w commands rest := by
  obtain ⟨p, hp, rfl⟩ := exists_of_resume? hm
  have hmem : (call, x) ∈ batch ++ s.client.completions :=
    List.mem_append_left _ (hbatch.mem_iff.mpr List.mem_cons_self)
  obtain ⟨command, hcommand, hleads⟩ := h.leads (call, p) hp x hmem
  exact (h.take hbatch).apply hcommand hleads.answers_advance

theorem countDispatched (h : s.Matched w commands batch) :
    s.countDispatched.Matched w commands batch :=
  ⟨h.world, h.started, h.calls, h.serves, h.leads, h.outcomes⟩

theorem route (h : s.Matched w commands batch) {call : CallRef} {x : Completion}
    (hbatch : batch.Perm ((call, x) :: rest)) : (s.route call x).Matched w commands rest := by
  have hmem : (call, x) ∈ batch ++ s.client.completions :=
    List.mem_append_left _ (hbatch.mem_iff.mpr List.mem_cons_self)
  have hcounted := h.countDispatched
  obtain ⟨p, hp⟩ := hcounted.exists_pending hmem
  have hm : s.countDispatched.resume? call x = some _ := resume?_of_mem hcounted.calls.nodup_keys hp
  rw [route_of_resume? hm]
  exact (hcounted.resume hbatch hm).2

theorem acceptNext (h : s.Matched w commands batch) (horigins : s.Origins s.scope commands) :
    s.acceptNext.Matched w commands batch := by
  cases hm : s.begin? with
  | none =>
    rw [Session.acceptNext, hm]
    exact h
  | some m =>
    rw [acceptNext_of_begin? hm]
    exact (h.begin horigins hm).2

/-- What is closed counts for nothing among the outcomes. -/
theorem outcomes_append (h : s.Matched w commands batch) {closed : List (Ticket × Outcome)}
    (hclosed : ∀ o ∈ closed, o.2 = .error .closed) :
    ∀ o ∈ s.outcomes ++ closed, o.2 ≠ .error .closed →
      ∃ command, commands[o.1]? = some command ∧ o.2 = w.reply s.scope command := by
  intro o ho hopen
  rcases List.mem_append.mp ho with ho | ho
  · exact h.outcomes o ho hopen
  · exact absurd (hclosed o ho) hopen

theorem send (h : s.Matched w commands batch) (command : Command) :
    (s.send command).2.Matched w commands batch := by
  cases hr : s.isRunning with
  | true =>
    rw [send_of_isRunning hr]
    exact ⟨h.world, h.started, h.calls, h.serves, h.leads, h.outcomes⟩
  | false =>
    rw [send_of_not_isRunning hr]
    exact ⟨h.world, h.started, h.calls, h.serves, h.leads,
      h.outcomes_append (List.forall_mem_singleton.mpr rfl)⟩

/-- Collecting moves what is on the way from the client to the batch. -/
theorem collect (h : s.Matched w commands []) : s.collect.2.Matched w commands s.collect.1 := by
  cases hstarted : s.client.isStarted with
  | false =>
    have hcollect : s.collect = ([], s) := by
      rw [collect_eq, Simulator.run_collect_of_not_isStarted hstarted]
    rwa [hcollect]
  | true =>
    have hcollect : s.collect =
        (s.client.completions, { s with client := { s.client with completions := [] } }) := by
      rw [collect_eq, Simulator.run_collect_of_isStarted hstarted]
    have hontheway : s.client.completions ++ [] = [] ++ s.client.completions := List.append_nil _
    rw [hcollect]
    refine ⟨h.world, h.started, ?_, ?_, fun p hp x hx => ?_, h.outcomes⟩
    · rw [hontheway]
      exact h.calls
    · have hserves := h.serves
      rw [← hontheway] at hserves
      exact ⟨hserves.downloads, hserves.pages⟩
    · rw [hontheway] at hx
      obtain ⟨command, hcommand, hleads⟩ := h.leads p hp x hx
      exact ⟨command, hcommand, hleads.congr rfl (fun _ _ => rfl) (fun _ _ => rfl)⟩

theorem dropNext (h : s.Matched w commands batch) : s.dropNext.Matched w commands batch := by
  match hq : s.queue with
  | [] => rwa [Session.dropNext, hq]
  | (ticket, command) :: queue =>
    rw [dropNext_cons hq]
    exact ⟨h.world, h.started, h.calls, h.serves, h.leads,
      h.outcomes_append (List.forall_mem_singleton.mpr rfl)⟩

/-- Nothing is left after the client has been torn down. -/
theorem tearDown (h : s.Matched w commands batch) (hrunning : s.isRunning = false) :
    s.tearDown.Matched w commands [] := by
  rw [tearDown_eq]
  exact ⟨h.world, fun hr => absurd (hrunning.symm.trans hr) Bool.false_ne_true,
    ⟨List.Perm.nil, List.nodup_nil, fun j hj => absurd hj List.not_mem_nil⟩,
    ⟨⟨List.Perm.nil, List.nodup_nil, fun j hj => absurd hj List.not_mem_nil⟩,
      ⟨List.Perm.nil, List.nodup_nil, fun j hj => absurd hj List.not_mem_nil⟩⟩,
    fun p hp => absurd hp List.not_mem_nil,
    h.outcomes_append (List.forall_mem_map.mpr fun _ _ => rfl)⟩

end Matched

namespace Loop

variable {w : World} {commands : List Command}

/-- A session on the simulator to which these commands have been sent. -/
structure InStep (l : Loop Simulator) (w : World) (scope : Scope) (commands : List Command) :
    Prop where
  consistent : l.Consistent
  ledger : l.session.Ledger
  count : l.session.nextTicket = commands.length
  origins : l.session.Origins scope commands
  matched : l.session.Matched w commands l.stage.batch

theorem InStep.step {l : Loop Simulator} {scope : Scope} (h : l.InStep w scope commands)
    (e : Event) : (l.step e).InStep w scope (commands ++ sent [e]) := by
  refine ⟨h.consistent.step e, stable_ledger.step e h.ledger, ?_, h.origins.step h.count e, ?_⟩
  · rw [nextTicket_step, h.count, List.length_append]
  have hmatched := h.matched.mono (sent [e])
  have horigins := h.origins.mono (sent [e])
  rw [← h.origins.sameScope] at horigins
  have hsteps := l.steps e
  generalize l.step e = l' at hsteps ⊢
  cases hsteps with
  | idle => exact hmatched
  | send command => exact hmatched.send command
  | stop => exact hmatched
  | accept => exact hmatched.acceptNext horigins
  | collect hstage =>
    rw [hstage] at hmatched
    exact hmatched.collect
  | dispatch hstage hplace =>
    rw [hstage] at hmatched
    obtain ⟨hlt, hplace⟩ := List.getElem?_eq_some_iff.mp hplace
    have hbatch := (List.getElem_cons_eraseIdx_perm hlt).symm
    rw [hplace] at hbatch
    exact hmatched.route hbatch
  | stray hstage completion hcall =>
    dsimp only
    rw [route_of_not_isAwaited completion hcall]
    exact hmatched.countDispatched
  | nextRound hstage =>
    rw [hstage] at hmatched
    exact hmatched
  | close hstage =>
    rw [hstage] at hmatched
    exact ⟨hmatched.world, fun hr => absurd hr Bool.false_ne_true, hmatched.calls,
      hmatched.serves, hmatched.leads, hmatched.outcomes⟩
  | drop => exact hmatched.dropNext
  | tearDown hstage =>
    refine hmatched.tearDown ?_
    rw [h.consistent.isRunning, hstage, Stage.isOpen]

theorem InStep.run {l : Loop Simulator} {scope : Scope} (h : l.InStep w scope commands)
    (es : List Event) : (l.run es).InStep w scope (commands ++ sent es) := by
  induction es generalizing l commands with
  | nil =>
    exact ⟨h.consistent, h.ledger, by simpa [sent] using h.count, h.origins.mono [],
      h.matched.mono []⟩
  | cons e es ih =>
    have hsent : sent (e :: es) = sent [e] ++ sent es := sent_append [e] es
    rw [run_cons, hsent, ← List.append_assoc]
    exact ih (h.step e)

/-- **The simulator gives out no call on which a query waits.** -/
theorem InStep.isFresh_of_move? {l : Loop Simulator} {scope : Scope}
    (h : l.InStep w scope commands) {e : Event} {m : Move Simulator} (hm : l.move? e = some m) :
    m.isFresh = true := by
  have horigins := h.origins
  rw [← horigins.sameScope] at horigins
  cases e with
  | accept =>
    cases hstage : l.stage <;> simp only [move?, hstage, reduceCtorEq] at hm
    exact (h.matched.begin horigins hm).1
  | dispatch place =>
    cases hplace : l.stage.batch[place]? with
    | none => simp only [move?, hplace, reduceCtorEq] at hm
    | some c =>
      simp only [move?, hplace] at hm
      obtain ⟨hlt, hplace⟩ := List.getElem?_eq_some_iff.mp hplace
      have hbatch := (List.getElem_cons_eraseIdx_perm hlt).symm
      rw [hplace] at hbatch
      exact (h.matched.countDispatched.resume hbatch hm).1
  | _ => simp only [move?, reduceCtorEq] at hm

theorem InStep.keepsCalls {l : Loop Simulator} {scope : Scope} (h : l.InStep w scope commands)
    (es : List Event) : l.keepsCalls es = true := by
  induction es generalizing l commands with
  | nil => rfl
  | cons e es ih =>
    rw [Loop.keepsCalls, ih (h.step e), Bool.and_true]
    cases hm : l.move? e with
    | none => rfl
    | some m => exact h.isFresh_of_move? hm

/-! ### From the start on -/

/-- A session that has just been started on a simulator. -/
theorem exists_start (snapshot : Snapshot) (failures : List Outage) (scope : Scope) :
    ∃ s : Session Simulator, start { Simulator.new snapshot with failures } scope = .ok s ∧
      (ofSession s).InStep ⟨snapshot, failures⟩ scope [] := by
  refine ⟨_, rfl, .of_isOpen rfl rfl, ⟨List.nodup_nil, List.Perm.refl _⟩, rfl,
    .of_nil rfl rfl rfl, ?_⟩
  exact ⟨rfl, fun _ => rfl, ⟨List.Perm.nil, List.nodup_nil, fun j hj => absurd hj List.not_mem_nil⟩,
    ⟨⟨List.Perm.nil, List.nodup_nil, fun j hj => absurd hj List.not_mem_nil⟩,
      ⟨List.Perm.nil, List.nodup_nil, fun j hj => absurd hj List.not_mem_nil⟩⟩,
    fun p hp => absurd hp List.not_mem_nil, fun o ho => absurd ho List.not_mem_nil⟩

/-- The completions on the way to queries. Between two rounds no batch has been collected, and
they are those in the queue of the client. -/
def onTheWay (l : Loop Simulator) : List (CallRef × Completion) :=
  l.stage.batch ++ l.session.client.completions

/-- The tables of a session on the simulator agree. -/
structure Agrees (l : Loop Simulator) : Prop where
  /-- Every query waits for one completion on the way, and every one of these is waited for. -/
  calls : (l.session.pending.map Prod.fst).Perm (l.onTheWay.map Prod.fst)
  once : (l.onTheWay.map Prod.fst).Nodup
  kinds : ∀ p ∈ l.session.pending, ∀ x, (p.1, x) ∈ l.onTheWay → x.kind = p.2.task.awaited
  /-- What is open is what completions on the way hand over. -/
  downloads : (l.session.client.downloads.map Prod.fst).Perm
    (l.onTheWay.filterMap fun c => c.2.download?)
  pages : (l.session.client.pages.map Prod.fst).Perm (l.onTheWay.filterMap fun c => c.2.page?)
  /-- No completion is dropped when it is its turn. -/
  routed : ∀ c ∈ l.stage.batch, l.session.isAwaited c.1 = true
  expected : ∀ o ∈ l.session.outcomes, ∀ wanted given,
    o.2 ≠ .error (.wrongCompletion wanted given)
  /-- Nothing stays open when no query waits, however the queries have ended. -/
  released : l.session.pending = [] → l.session.client.downloads = [] ∧ l.session.client.pages = []

theorem InStep.agrees {l : Loop Simulator} {scope : Scope} (h : l.InStep w scope commands) :
    l.Agrees := by
  have hmatched := h.matched
  have hdownloads := hmatched.serves.downloads
  have hpages := hmatched.serves.pages
  rw [List.filterMap_map] at hdownloads hpages
  refine ⟨hmatched.calls.perm.symm, hmatched.calls.nodup, fun p hp x hx => ?_, hdownloads.perm,
    hpages.perm, fun c hc => ?_, fun o ho wanted given hwrong => ?_, fun hpending => ?_⟩
  · obtain ⟨command, -, hleads⟩ := hmatched.leads p hp x hx
    exact hleads.kind
  · obtain ⟨p, hp⟩ := hmatched.exists_pending (List.mem_append_left _ hc)
    exact isAwaited_of_mem hp
  · obtain ⟨command, -, hreply⟩ := hmatched.outcomes o ho (by simp [hwrong])
    exact w.reply_ne_wrongCompletion _ command wanted given (hreply.symm.trans hwrong)
  · have hcalls := hmatched.calls
    rw [hpending] at hcalls
    have hontheway := List.append_eq_nil_iff.mp hcalls.eq_nil
    rw [hontheway.1, hontheway.2] at hdownloads hpages
    exact ⟨hdownloads.eq_nil, hpages.eq_nil⟩

/-- **The tables of a session on the simulator agree in every state of every run.** -/
theorem tables_agree (snapshot : Snapshot) (failures : List Outage) (scope : Scope) :
    ∃ s : Session Simulator, start { Simulator.new snapshot with failures } scope = .ok s ∧
      ∀ es, ((ofSession s).run es).Agrees := by
  obtain ⟨s, hs, hinstep⟩ := exists_start snapshot failures scope
  exact ⟨s, hs, fun es => (hinstep.run es).agrees⟩

end Loop

end Session

end PlatformProxy
