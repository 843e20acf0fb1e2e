import PlatformProxy.Platform.Recording
import PlatformProxy.Platform.Simulator
import PlatformProxy.Proofs.Session.Origins
import PlatformProxy.Proofs.Session.Outcomes

/-!
# The life of a session

The client may be any: it may complete calls late, wrongly, twice or never. What is said here of
the calls made on it is read off a `Platform.Recording`.

## Main results

* `Session.Loop.exists_run_ended` — a loop that is told to stop comes to its end
* `Session.Loop.calls_run` — the client is torn down once, and nothing is called after that
* `Session.Loop.every_command_has_one_outcome` — the outcomes of a session, from its start to its
  end
-/

namespace PlatformProxy

open Platform Transition

variable {σ : Type} [Client σ]

namespace Platform

/-! ### Calls that do not tear the client down -/

namespace Recording

/-- The client has not been torn down. -/
def IsUp (r : Recording σ) : Prop := Call.stop ∉ r.calls

omit [Client σ] in
theorem preserves_perform {α : Type} {call : Call} (hcall : call ≠ .stop) (action : StateM σ α) :
    Preserves IsUp (perform call action) := by
  intro r hr
  have hcalls : ((perform call action).run r).2.calls = r.calls ++ [call] := rfl
  rw [IsUp, hcalls, List.mem_append, List.mem_singleton]
  rintro (h | h)
  · exact hr h
  · exact hcall h.symm

end Recording

end Platform

namespace Query

open Recording

theorem Leaderboard.preserves_readEntries (entries : DownloadRef) (count index : Nat)
    (acc : List NamedEntry) :
    Preserves (IsUp (σ := σ)) (readEntries entries count index acc) := by
  induction count generalizing index acc with
  | zero => exact Preserves.pure _
  | succ count ih =>
    refine Preserves.bind (preserves_perform (by simp) _) fun entry => ?_
    cases entry with
    | none => exact Preserves.pure _
    | some entry =>
      exact Preserves.bind (preserves_perform (by simp) _) fun name => ih _ _

theorem Leaderboard.preserves_download (query : Leaderboard) (board : BoardRef) :
    Preserves (IsUp (σ := σ)) (query.download board) := by
  obtain ⟨name, selector, stage⟩ := query
  refine Preserves.bind (preserves_perform (by simp) _) fun total => ?_
  cases selector <;>
    exact Preserves.bind (preserves_perform (by simp) _) fun call => Preserves.pure _

theorem Leaderboard.preserves_read (query : Leaderboard) (total : Int32) (download : Download) :
    Preserves (IsUp (σ := σ)) (query.read total download) := by
  refine Preserves.bind (preserves_readEntries _ _ _ _) fun result => ?_
  refine Preserves.bind (preserves_perform (by simp) _) fun _ => ?_
  cases result <;> exact Preserves.pure _

theorem Leaderboard.preserves_advance (query : Leaderboard) (completion : Completion) :
    Preserves (IsUp (σ := σ)) (query.advance completion) := by
  obtain ⟨name, selector, _ | total⟩ := query
  · rcases completion with (_ | _ | board) | download | summary
    case boardFound.ok.some => exact preserves_download _ board
    all_goals exact Preserves.pure _
  · rcases completion with board | (_ | download) | summary
    case downloaded.ok => exact preserves_read _ total download
    all_goals exact Preserves.pure _

theorem Workshop.preserves_readItems (page : PageRef) (count index : Nat) (acc : Gathered) :
    Preserves (IsUp (σ := σ)) (readItems page count index acc) := by
  induction count generalizing index acc with
  | zero => exact Preserves.pure _
  | succ count ih =>
    refine Preserves.bind (preserves_perform (by simp) _) fun item => ?_
    cases item with
    | none => exact Preserves.pure _
    | some item =>
      refine Preserves.bind (preserves_perform (by simp) _) fun name => ?_
      exact Preserves.bind (preserves_perform (by simp) _) fun preview => ih _ _

theorem Workshop.preserves_requestPage (query : Workshop) (warnings : List Warning) :
    Preserves (IsUp (σ := σ)) (query.requestPage warnings) :=
  Preserves.bind (preserves_perform (by simp) _) fun _ => Preserves.pure _

theorem Workshop.preserves_read (query : Workshop) (summary : PageSummary) :
    Preserves (IsUp (σ := σ)) (query.read summary) := by
  refine Preserves.bind (preserves_readItems _ _ _ _) fun ⟨failed, gathered⟩ => ?_
  refine Preserves.bind (preserves_perform (by simp) _) fun _ => ?_
  cases failed with
  | some index => exact Preserves.pure _
  | none =>
    dsimp only
    split
    · exact Preserves.pure _
    · exact preserves_requestPage _ _

theorem Workshop.preserves_advance (query : Workshop) (completion : Completion) :
    Preserves (IsUp (σ := σ)) (query.advance completion) := by
  rcases completion with board | download | (_ | summary)
  case pageCompleted.ok => exact preserves_read query summary
  all_goals exact Preserves.pure _

end Query

namespace Session

open Query Recording

theorem Task.preserves_advance (task : Task) (completion : Completion) :
    Preserves (IsUp (σ := σ)) (task.advance completion) := by
  cases task with
  | leaderboard query => exact (query.preserves_advance completion).map _
  | workshop query => exact (query.preserves_advance completion).map _

theorem Command.preserves_start (command : Command) (scope : Scope) :
    Preserves (IsUp (σ := σ)) (command.start scope) := by
  cases command with
  | leaderboard name selector =>
    exact (Preserves.bind (preserves_perform (by simp) _) fun _ => Preserves.pure _).map _
  | personaName user => exact (preserves_perform (by simp) _).map _
  | workshop search =>
    refine Preserves.map ?_ _
    rw [Workshop.start]
    split
    · exact Preserves.pure _
    · exact Workshop.preserves_requestPage _ _

/-! ### Tearing down -/

theorem isUp_acceptNext {s : Session (Recording σ)} (h : s.client.IsUp) :
    s.acceptNext.client.IsUp := by
  match hq : s.queue with
  | [] => rwa [acceptNext_of_nil hq]
  | (ticket, command) :: queue =>
    rw [acceptNext_of_begin? (begin?_cons hq), Move.client_apply]
    exact command.preserves_start s.scope s.client h

theorem isUp_route {s : Session (Recording σ)} (h : s.client.IsUp) (call : CallRef)
    (completion : Completion) : (s.route call completion).client.IsUp := by
  cases hm : s.countDispatched.resume? call completion with
  | none =>
    rw [route, hm]
    exact h
  | some m =>
    obtain ⟨p, -, rfl⟩ := exists_of_resume? hm
    rw [route_of_resume? hm, Move.client_apply]
    exact p.task.preserves_advance completion s.client h

namespace Loop

/-- The client is torn down at the end, and nothing is called after that. -/
structure TornDown (l : Loop (Recording σ)) : Prop where
  isUp : l.stage ≠ .ended → l.session.client.IsUp
  ended : l.stage = .ended →
    ∃ earlier, l.session.client.calls = earlier ++ [.stop] ∧ .stop ∉ earlier

omit [Client σ] in
theorem TornDown.of_isUp {l : Loop (Recording σ)} (hclient : l.session.client.IsUp)
    (hstage : l.stage ≠ .ended) : l.TornDown :=
  ⟨fun _ => hclient, fun hended => absurd hended hstage⟩

theorem TornDown.step {l : Loop (Recording σ)} (h : l.TornDown) (e : Event) :
    (l.step e).TornDown := by
  have hsteps := l.steps e
  generalize l.step e = l' at hsteps ⊢
  cases hsteps with
  | idle => exact h
  | send command =>
    have hclient : (l.session.send command).2.client = l.session.client := client_send _ _
    refine ⟨fun hstage => ?_, fun hstage => ?_⟩ <;> dsimp only <;> rw [hclient]
    · exact h.isUp hstage
    · exact h.ended hstage
  | stop => exact ⟨h.isUp, h.ended⟩
  | accept hstage =>
    exact .of_isUp (isUp_acceptNext (h.isUp (by simp [hstage]))) (by simp [hstage])
  | collect hstage =>
    exact .of_isUp (preserves_perform (by simp) _ _ (h.isUp (by simp [hstage]))) (by simp)
  | dispatch hstage => exact .of_isUp (isUp_route (h.isUp (by simp [hstage])) _ _) (by simp)
  | stray hstage =>
    exact .of_isUp (isUp_route (h.isUp (by simp [hstage])) _ _) (by simp [hstage])
  | nextRound hstage => exact .of_isUp (h.isUp (by simp [hstage])) (by simp)
  | close hstage => exact .of_isUp (h.isUp (by simp [hstage])) (by simp)
  | drop hstage =>
    have hclient := h.isUp (by simp [hstage])
    exact .of_isUp (by rwa [dropNext_eq]) (by simp [hstage])
  | tearDown hstage =>
    refine ⟨fun hended => absurd rfl hended, fun _ => ?_⟩
    refine ⟨l.session.client.calls, ?_, h.isUp (by simp [hstage])⟩
    dsimp only
    rw [tearDown_eq]
    rfl

theorem TornDown.run {l : Loop (Recording σ)} (h : l.TornDown) (es : List Event) :
    (l.run es).TornDown :=
  run_induction (fun _ e hl => hl.step e) h es

/-! ### The end -/

/-- The loop can come to its end once a closed queue is all that is left. -/
theorem exists_run_ended_of_closing {l : Loop σ} (hl : l.stage = .closing) :
    ∃ es, sent es = [] ∧ (l.run es).stage = .ended :=
  ⟨closeEvents l.session, sent_closeEvents _, by rw [run_closeEvents hl]⟩

theorem exists_run_ended_of_dispatching {l : Loop σ} {batch : List (CallRef × Completion)}
    (hl : l.stage = .dispatching batch) (hstop : l.stopRequested = true) :
    ∃ es, sent es = [] ∧ (l.run es).stage = .ended := by
  have hclosing : ((l.run (List.replicate batch.length (.dispatch 0))).step .endRound).stage =
      .closing := by
    rw [run_dispatches hl]
    simp only [step, endRound, hstop, if_true]
  obtain ⟨es, hsent, hended⟩ := exists_run_ended_of_closing hclosing
  refine ⟨List.replicate batch.length (.dispatch 0) ++ .endRound :: es, ?_, ?_⟩
  · rw [sent_append, sent_replicate rfl]
    exact hsent
  · rw [run_append]
    exact hended

/-- **A loop that is told to stop comes to its end.** -/
theorem exists_run_ended {l : Loop σ} (hstop : l.stopRequested = true) :
    ∃ es, sent es = [] ∧ (l.run es).stage = .ended := by
  cases hstage : l.stage with
  | ended => exact ⟨[], rfl, hstage⟩
  | closing => exact exists_run_ended_of_closing hstage
  | dispatching batch => exact exists_run_ended_of_dispatching hstage hstop
  | accepting =>
    have hround := run_roundEvents hstage
    obtain ⟨es, hsent, hended⟩ := exists_run_ended_of_dispatching
      (l := l.run (roundEvents l.session)) (by rw [hround]) (by rw [hround]; exact hstop)
    refine ⟨roundEvents l.session ++ es, ?_, ?_⟩
    · rw [sent_append, sent_roundEvents, hsent, List.append_nil]
    · rw [run_append]
      exact hended

end Loop

/-- **Commands that arrive after the queue has been closed are refused.** -/
theorem stable_refused (n : Nat) :
    Stable (fun s : Session σ => s.isRunning = false ∧
      ∀ t, n ≤ t → t < s.nextTicket → (t, .error .closed) ∈ s.outcomes) where
  send {s} command h := by
    rw [send_of_not_isRunning h.1]
    refine ⟨h.1, fun t hn ht => ?_⟩
    rcases Nat.lt_succ_iff_lt_or_eq.mp ht with ht | rfl
    · exact List.mem_append_left _ (h.2 t hn ht)
    · simp
  begin {s m} hm h := by
    obtain ⟨ticket, command, queue, -, rfl⟩ := exists_of_begin? hm
    refine ⟨by rw [Move.isRunning_apply]; exact h.1, fun t hn ht => ?_⟩
    rw [Move.nextTicket_apply] at ht
    exact (Move.prefix_outcomes_apply _).subset (h.2 t hn ht)
  resume {s _ _ m} hm h := by
    obtain ⟨p, -, rfl⟩ := exists_of_resume? hm
    refine ⟨by rw [Move.isRunning_apply]; exact h.1, fun t hn ht => ?_⟩
    rw [Move.nextTicket_apply] at ht
    exact (Move.prefix_outcomes_apply _).subset (h.2 t hn ht)
  countDispatched h := h
  collect h := h
  closeQueue h := ⟨rfl, h.2⟩
  dropNext {s} h := by
    match hq : s.queue with
    | [] => rwa [dropNext, hq]
    | (ticket, command) :: queue =>
      rw [dropNext_cons hq]
      exact ⟨h.1, fun t hn ht => List.mem_append_left _ (h.2 t hn ht)⟩
  tearDown h := by
    rw [tearDown_eq]
    exact ⟨h.1, fun t hn ht => List.mem_append_left _ (h.2 t hn ht)⟩

/-- The tickets of the commands that have no outcome. -/
def waiting (s : Session σ) : List Ticket :=
  s.queue.map Prod.fst ++ s.pending.map fun p => p.2.ticket

namespace Loop

/-- Once the queue is closed no query moves. -/
theorem move?_of_not_isRunning {l : Loop σ} (hl : l.Consistent)
    (hrunning : l.session.isRunning = false) (e : Event) : l.move? e = none := by
  cases hm : l.move? e with
  | none => rfl
  | some m =>
    have hopen := hl.isRunning.trans (exists_of_move? hm).1
    exact absurd (hrunning.symm.trans hopen) Bool.false_ne_true

theorem resolutions_of_not_isRunning {l : Loop σ} (hl : l.Consistent)
    (hrunning : l.session.isRunning = false) (es : List Event) :
    l.keepsCalls es = true ∧ l.resolutions es = [] := by
  induction es generalizing l with
  | nil => exact ⟨rfl, rfl⟩
  | cons e es ih =>
    have hm := move?_of_not_isRunning hl hrunning e
    obtain ⟨hkeeps, hnone⟩ := ih (hl.step e) (stable_not_isRunning.step e hrunning)
    simp [keepsCalls, resolutions, resolution?, hm, hkeeps, hnone]

/-- **A command that has no outcome when the queue is closed never gets another than that of a
closed session**, and has it at the end. -/
theorem closed_of_mem_waiting {l : Loop σ} (hl : l.Consistent) (hledger : l.session.Ledger)
    (hrunning : l.session.isRunning = false) {es : List Event} (hended : (l.run es).stage = .ended)
    {t : Ticket} (ht : t ∈ l.session.waiting) :
    (t, .error .closed) ∈ (l.run es).session.outcomes := by
  have hgiven : t < (l.run es).session.nextTicket := by
    have hmem := hledger.tickets.mem_iff.mp (List.mem_append_left _ ht)
    rw [List.mem_range] at hmem
    rw [nextTicket_run]
    exact Nat.lt_add_right _ hmem
  have hend := (hl.run es).ended hended
  obtain ⟨outcome, houtcome⟩ := (stable_ledger.run hledger es).exists_outcome hend.1 hend.2 hgiven
  by_cases hclosed : outcome = .error .closed
  · rwa [← hclosed]
  · -- Otherwise the outcome was there before, under a ticket that still waits.
    exfalso
    obtain ⟨hkeeps, hnone⟩ := resolutions_of_not_isRunning hl hrunning es
    have hfilter := filter_outcomes_run hl hkeeps
    rw [hnone, List.append_nil] at hfilter
    have hbefore : (t, outcome) ∈ l.session.outcomes.filter fun o => !isClosure o.2 := by
      rw [← hfilter, List.mem_filter]
      exact ⟨houtcome, by rw [isClosure_eq_false hclosed]; rfl⟩
    have hmem := List.mem_map_of_mem (f := Prod.fst) (List.mem_of_mem_filter hbefore)
    exact (List.nodup_append.mp hledger.nodup).2.2 t ht t hmem rfl

/-! ### From the start to the end -/

/-- What becomes of the commands that arrive during a run, and of the client. -/
structure Lifecycle (l : Loop (Recording σ)) (es : List Event) : Prop where
  /-- Every command has one place: the queue, among the queries that wait, or one outcome. -/
  tickets : (l.run es).session.tickets.Perm (List.range (sent es).length)
  /-- But for closures, the outcomes are those that queries ended with, or names. -/
  resolved : (l.run es).session.outcomes.filter (fun o => !isClosure o.2) = l.resolutions es
  /-- And each of them is what the query of its command came to. -/
  origin : ∀ o ∈ (l.run es).session.outcomes, o.2 ≠ .error .closed →
    ∃ command, (sent es)[o.1]? = some command ∧
      command.LeadsTo (Recording σ) l.session.scope (.done o.2)
  /-- Nothing is closed before the loop is told to stop. -/
  running : .stop ∉ es → (l.run es).session.isRunning = true
  unclosed : (l.run es).session.isRunning = true →
    ∀ o ∈ (l.run es).session.outcomes, o.2 ≠ .error .closed
  kept : ∀ es₁ es₂, es = es₁ ++ es₂ →
    (l.run es₁).session.outcomes <+: (l.run es).session.outcomes
  /-- What arrives after the queue has been closed is refused. -/
  refused : ∀ es₁ es₂, es = es₁ ++ es₂ → (l.run es₁).session.isRunning = false →
    ∀ t, (sent es₁).length ≤ t → t < (sent es).length →
      (t, .error .closed) ∈ (l.run es).session.outcomes
  /-- What has no outcome when the queue is closed is dropped. -/
  dropped : ∀ es₁ es₂, es = es₁ ++ es₂ → (l.run es₁).session.isRunning = false →
    (l.run es).stage = .ended →
    ∀ t ∈ (l.run es₁).session.waiting, (t, .error .closed) ∈ (l.run es).session.outcomes
  /-- At the end no query waits, and every command has its outcome. -/
  settled : (l.run es).stage = .ended → (l.run es).session.pending = [] ∧
    ((l.run es).session.outcomes.map Prod.fst).Perm (List.range (sent es).length)
  /-- The client is torn down once, at the end, and nothing is called after that. -/
  up : (l.run es).stage ≠ .ended → .stop ∉ (l.run es).session.client.calls
  down : (l.run es).stage = .ended →
    ∃ earlier, (l.run es).session.client.calls = earlier ++ [.stop] ∧ .stop ∉ earlier
  /-- The loop can always be brought to its end. -/
  ends : ∃ rest, sent rest = [] ∧ (l.run (es ++ .stop :: rest)).stage = .ended

/-- **Every command has exactly one outcome**, whatever the client does, as long as it gives out no
call on which a query still waits. -/
theorem every_command_has_one_outcome {client : σ} {scope : Scope} {s : Session (Recording σ)}
    (hs : start (Recording.of client) scope = .ok s) {es : List Event}
    (hes : (ofSession s).keepsCalls es = true) : (ofSession s).Lifecycle es := by
  obtain ⟨-, rfl⟩ := exists_of_start hs
  set l := ofSession (σ := Recording σ)
    ⟨(Client.start.run (Recording.of client)).2, scope, 0, [], [], [], 0, true⟩ with hl
  have hconsistent : l.Consistent := .of_isOpen rfl rfl
  have hledger : l.session.Ledger := ⟨List.nodup_nil, List.Perm.refl _⟩
  have hup : l.TornDown := .of_isUp (preserves_perform (by simp) _ _ (by simp [IsUp, Recording.of]))
    (by simp [hl, ofSession])
  have hsent : ∀ es, (l.run es).session.nextTicket = (sent es).length := fun es => by
    rw [nextTicket_run]
    exact Nat.zero_add _
  have htickets : ∀ es, (l.run es).session.tickets.Perm (List.range (sent es).length) := by
    intro es
    rw [← hsent]
    exact (stable_ledger.run hledger es).tickets
  refine ⟨htickets es, ?_, ?_, ?_, ?_, ?_, ?_, ?_, ?_, ?_, ?_, ?_⟩
  · rw [filter_outcomes_run hconsistent hes]
    rfl
  · have horigins : l.session.Origins l.session.scope [] := .of_nil rfl rfl rfl
    exact (horigins.run rfl es).outcomes
  · intro hstop
    rw [(hconsistent.run es).isRunning]
    exact (isOpen_run rfl rfl hstop).1
  · intro hrunning o ho
    rw [outcomes_run_of_isRunning hconsistent hes hrunning] at ho
    exact ne_closed_of_mem_resolutions ho
  · rintro es₁ es₂ rfl
    rw [run_append]
    exact (stable_outcomes _).run (List.prefix_refl _) es₂
  · rintro es₁ es₂ rfl hrunning t ht hlt
    rw [← hsent] at ht hlt
    rw [run_append] at hlt ⊢
    have hnone : ∀ t, (l.run es₁).session.nextTicket ≤ t → ¬ t < (l.run es₁).session.nextTicket :=
      fun t => Nat.not_lt.mpr
    exact ((stable_refused _).run ⟨hrunning, fun t h h' => absurd h' (hnone t h)⟩ es₂).2 t ht hlt
  · rintro es₁ es₂ rfl hrunning hended t ht
    rw [run_append] at hended ⊢
    exact closed_of_mem_waiting (hconsistent.run es₁) (stable_ledger.run hledger es₁) hrunning
      hended ht
  · intro hended
    obtain ⟨hqueue, hpending⟩ := (hconsistent.run es).ended hended
    have hall := htickets es
    rw [tickets, hqueue, hpending] at hall
    exact ⟨hpending, hall⟩
  · exact (hup.run es).isUp
  · exact (hup.run es).ended
  · obtain ⟨rest, hrest, hended⟩ := exists_run_ended (l := (l.run es).step .stop) rfl
    refine ⟨rest, hrest, ?_⟩
    rw [run_append]
    exact hended

/-- A session that is told to stop while a query waits. -/
theorem lifecycle_of_stop_while_waiting :
    ∃ s : Session (Recording Simulator),
      start (Recording.of (Simulator.new (Snapshot.empty.addBoard "board" [⟨7, 100⟩]))) ⟨1, []⟩ =
        .ok s ∧
      (ofSession s).Lifecycle
        [.send (.leaderboard "board" (.range 1 10)), .send (.personaName 7), .accept, .accept,
          .collect, .stop, .dispatch 0, .endRound, .send (.personaName 7), .tearDown] := by
  have hs : start (Recording.of (Simulator.new (Snapshot.empty.addBoard "board" [⟨7, 100⟩])))
      ⟨1, []⟩ = .ok _ := rfl
  exact ⟨_, hs, every_command_has_one_outcome hs (by decide +kernel)⟩

end Loop

end Session

end PlatformProxy
