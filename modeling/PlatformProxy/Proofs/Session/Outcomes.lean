import PlatformProxy.Proofs.Query.Steps
import PlatformProxy.Proofs.Session.Ledger

/-!
# Where outcomes come from

An outcome is filed when the last step of a query is made, or when the session is closed to a
command that has none. The two are told apart by the outcome itself, since no query ends as a
closed session does. While the session runs, only the first kind is filed, provided that the
client gives out no call on which a query still waits: such a call would drop that query.

## Main definitions

* `Session.Loop.resolutions` — the outcomes that queries end with during a run
* `Session.Loop.keepsCalls` — the client gives out no call on which a query waits
* `Session.Loop.Consistent` — the session is running while the queue is open, and empty at the end

## Main results

* `Session.Loop.filter_outcomes_run` — but for closures, the outcomes are those of the queries
* `Session.Loop.outcomes_run_of_isRunning` — and while the session runs there are no closures
* `Session.stable_outcomes` — an outcome that has been filed stays
-/

namespace PlatformProxy

namespace Session

open Platform

variable {σ : Type} [Client σ]

/-- Whether an outcome says that the session is closed. -/
def isClosure : Outcome → Bool
  | .error .closed => true
  | _ => false

theorem isClosure_eq_false {outcome : Outcome} (h : outcome ≠ .error .closed) :
    isClosure outcome = false := by
  rcases outcome with (_ | _ | _ | _) | _ <;> first | rfl | exact absurd rfl h

namespace Move

/-- The outcome of the query, if the step is its last. -/
def resolution? (m : Move σ) : Option (Ticket × Outcome) :=
  match m.progress with
  | .await _ _ => none
  | .done outcome => some (m.ticket, outcome)

/-- Whether no query waits for the call that the step has led to. -/
def isFresh (m : Move σ) : Bool :=
  match m.progress with
  | .await call _ => !m.session.isAwaited call
  | .done _ => true

omit [Client σ] in
theorem outcomes_apply {m : Move σ} (h : m.isFresh = true) :
    m.apply.outcomes = m.session.outcomes ++ m.resolution?.toList := by
  cases hm : m.progress with
  | await call task =>
    have hcall : m.session.isAwaited call = false := by simpa [isFresh, hm] using h
    rw [apply_await hm, await_of_not_isAwaited hcall]
    simp [resolution?, hm]
  | done outcome => simp [apply_done hm, resolve, resolution?, hm]

end Move

namespace Loop

/-- The outcome that a query ends with when an event happens. -/
def resolution? (l : Loop σ) (e : Event) : Option (Ticket × Outcome) :=
  (l.move? e).bind Move.resolution?

/-- The outcomes that queries end with during a run. -/
def resolutions (l : Loop σ) : List Event → List (Ticket × Outcome)
  | [] => []
  | e :: es => (l.resolution? e).toList ++ resolutions (l.step e) es

/-- Whether the client gives out no call on which a query waits. -/
def keepsCalls (l : Loop σ) : List Event → Bool
  | [] => true
  | e :: es => (l.move? e).all Move.isFresh && keepsCalls (l.step e) es

/-! ### Moves of a loop -/

theorem outcomes_of_move? {l : Loop σ} {e : Event} {m : Move σ} (h : l.move? e = some m) :
    m.session.outcomes = l.session.outcomes := by
  rcases (exists_of_move? h).2 with hm | ⟨call, completion, hm⟩
  · obtain ⟨ticket, command, queue, -, rfl⟩ := exists_of_begin? hm
    rfl
  · obtain ⟨p, -, rfl⟩ := exists_of_resume? hm
    rfl

/-- No query ends as a closed session does. -/
theorem ne_closed_of_resolution? {l : Loop σ} {e : Event} {o : Ticket × Outcome}
    (h : l.resolution? e = some o) : o.2 ≠ .error .closed := by
  obtain ⟨m, hm, ho⟩ := Option.bind_eq_some_iff.mp h
  cases hprogress : m.progress with
  | await call task => simp [Move.resolution?, hprogress] at ho
  | done outcome =>
    have ho' : o = (m.ticket, outcome) := by simpa [Move.resolution?, hprogress] using ho.symm
    rw [ho']
    rcases (exists_of_move? hm).2 with hm | ⟨call, completion, hm⟩
    · obtain ⟨ticket, command, queue, -, rfl⟩ := exists_of_begin? hm
      have hfollows := command.follows_start l.session.scope l.session.client
      rw [show ((command.start l.session.scope).run l.session.client).1 = .done outcome from
        hprogress] at hfollows
      exact hfollows
    · obtain ⟨p, -, rfl⟩ := exists_of_resume? hm
      have hfollows := p.task.follows_advance completion l.session.client
      rw [show ((p.task.advance completion).run l.session.client).1 = .done outcome from
        hprogress] at hfollows
      exact hfollows

/-! ### The stage and the session -/

/-- The session runs while the queue is open, and at the end nobody waits. -/
structure Consistent (l : Loop σ) : Prop where
  isRunning : l.session.isRunning = l.stage.isOpen
  ended : l.stage = .ended → l.session.queue = [] ∧ l.session.pending = []

omit [Client σ] in
theorem Consistent.of_isOpen {l : Loop σ} (hrunning : l.session.isRunning = true)
    (hstage : l.stage.isOpen = true) : l.Consistent := by
  refine ⟨hrunning.trans hstage.symm, fun hended => ?_⟩
  rw [hended] at hstage
  exact absurd hstage Bool.false_ne_true

omit [Client σ] in
theorem Consistent.of_closing {l : Loop σ} (hrunning : l.session.isRunning = false)
    (hstage : l.stage = .closing) : l.Consistent := by
  refine ⟨?_, fun hended => ?_⟩
  · rw [hrunning, hstage, Stage.isOpen]
  · rw [hstage] at hended
    exact Stage.noConfusion hended

theorem Consistent.step {l : Loop σ} (h : l.Consistent) (e : Event) : (l.step e).Consistent := by
  have hrunning := h.isRunning
  have hsteps := l.steps e
  generalize l.step e = l' at hsteps ⊢
  cases hsteps with
  | idle => exact h
  | send command =>
    cases hopen : l.stage.isOpen with
    | true =>
      rw [hopen] at hrunning
      refine .of_isOpen ?_ hopen
      rw [send_of_isRunning hrunning]
      exact hrunning
    | false =>
      rw [hopen] at hrunning
      rw [send_of_not_isRunning hrunning]
      exact ⟨hrunning.trans hopen.symm, h.ended⟩
  | stop => exact ⟨hrunning, h.ended⟩
  | accept hstage =>
    rw [hstage] at hrunning
    exact .of_isOpen (by rwa [isRunning_acceptNext]) (by rw [hstage, Stage.isOpen])
  | collect hstage =>
    rw [hstage] at hrunning
    exact .of_isOpen hrunning rfl
  | dispatch hstage =>
    rw [hstage] at hrunning
    exact .of_isOpen (by rwa [isRunning_route]) rfl
  | stray hstage =>
    rw [hstage] at hrunning
    exact .of_isOpen (by rwa [isRunning_route]) (by rw [hstage, Stage.isOpen])
  | nextRound hstage =>
    rw [hstage] at hrunning
    exact .of_isOpen hrunning rfl
  | close => exact .of_closing rfl rfl
  | drop hstage =>
    rw [hstage] at hrunning
    exact .of_closing (by rwa [isRunning_dropNext]) hstage
  | tearDown hstage hqueue =>
    rw [hstage] at hrunning
    refine ⟨?_, fun _ => ⟨?_, ?_⟩⟩ <;> rw [tearDown_eq]
    · exact hrunning
    · exact hqueue

theorem Consistent.run {l : Loop σ} (h : l.Consistent) (es : List Event) :
    (l.run es).Consistent :=
  run_induction (fun _ e hl => hl.step e) h es

/-! ### The outcomes of a run -/

/-- An event files the outcome of the query that it ends, and then closures, but none while the
session runs. -/
theorem outcomes_step {l : Loop σ} (hl : l.Consistent) {e : Event}
    (hfresh : (l.move? e).all Move.isFresh = true) :
    ∃ dropped : List Ticket,
      (l.step e).session.outcomes =
        l.session.outcomes ++ (l.resolution? e).toList ++
          dropped.map (fun t => (t, .error .closed)) ∧
      ((l.step e).session.isRunning = true → dropped = []) := by
  cases hm : l.move? e with
  | some m =>
    rw [hm, Option.all_some] at hfresh
    refine ⟨[], ?_, fun _ => rfl⟩
    rw [session_step_of_move? hm, Move.outcomes_apply hfresh, outcomes_of_move? hm, resolution?, hm]
    simp
  | none =>
    have hclosing : l.stage = .closing → l.session.isRunning = false := fun hstage => by
      rw [hl.isRunning, hstage, Stage.isOpen]
    rw [resolution?, hm, Option.bind_none, Option.toList_none, List.append_nil]
    rcases session_step_of_move?_eq_none hm with
      hs | hs | ⟨command, -, hs⟩ | ⟨-, hs⟩ | hs | ⟨hstage, hs⟩ | ⟨hstage, hs⟩ <;> rw [hs]
    · exact ⟨[], by simp, fun _ => rfl⟩
    · exact ⟨[], by simp [countDispatched], fun _ => rfl⟩
    · cases hr : l.session.isRunning with
      | true =>
        rw [send_of_isRunning hr]
        exact ⟨[], by simp, fun _ => rfl⟩
      | false =>
        rw [send_of_not_isRunning hr]
        exact ⟨[l.session.nextTicket], by simp,
          fun h => absurd (hr.symm.trans h) Bool.false_ne_true⟩
    · exact ⟨[], by simp [collect_eq], fun _ => rfl⟩
    · exact ⟨[], by simp [closeQueue], fun _ => rfl⟩
    · rw [isRunning_dropNext, hclosing hstage]
      match hq : l.session.queue with
      | [] => exact ⟨[], by simp [dropNext, hq], fun _ => rfl⟩
      | (ticket, command) :: queue =>
        exact ⟨[ticket], by simp [dropNext_cons hq], fun h => absurd h Bool.false_ne_true⟩
    · rw [tearDown_eq]
      refine ⟨l.session.pending.map fun p => p.2.ticket, by simp, fun h => ?_⟩
      exact absurd ((hclosing hstage).symm.trans h) Bool.false_ne_true

/-- **But for closures, the outcomes are those that queries ended with**, in the same order. -/
theorem filter_outcomes_run {l : Loop σ} (hl : l.Consistent) {es : List Event}
    (hes : l.keepsCalls es = true) :
    (l.run es).session.outcomes.filter (fun o => !isClosure o.2) =
      l.session.outcomes.filter (fun o => !isClosure o.2) ++ l.resolutions es := by
  induction es generalizing l with
  | nil => simp [resolutions]
  | cons e es ih =>
    rw [keepsCalls, Bool.and_eq_true] at hes
    obtain ⟨dropped, houtcomes, -⟩ := outcomes_step hl hes.1
    have hresolved : (l.resolution? e).toList.filter (fun o => !isClosure o.2) =
        (l.resolution? e).toList := by
      refine List.filter_eq_self.mpr fun o ho => ?_
      rw [isClosure_eq_false (ne_closed_of_resolution? (Option.mem_toList.mp ho))]
      rfl
    have hdropped : (dropped.map fun t => ((t, .error .closed) : Ticket × Outcome)).filter
        (fun o => !isClosure o.2) = [] := by
      simp [isClosure]
    rw [run_cons, ih (hl.step e) hes.2, houtcomes, List.filter_append, List.filter_append,
      hresolved, hdropped, List.append_nil, List.append_assoc, resolutions]

end Loop

/-- Once the queue is closed it stays closed. -/
theorem stable_not_isRunning : Stable (fun s : Session σ => s.isRunning = false) where
  send command h := by rwa [send_of_not_isRunning h]
  begin hm h := by
    obtain ⟨ticket, command, queue, -, rfl⟩ := exists_of_begin? hm
    rwa [Move.isRunning_apply]
  resume hm h := by
    obtain ⟨p, -, rfl⟩ := exists_of_resume? hm
    rwa [Move.isRunning_apply]
  countDispatched h := h
  collect h := h
  closeQueue _ := rfl
  dropNext h := by rwa [isRunning_dropNext]
  tearDown h := by rwa [tearDown_eq]

omit [Client σ] in
theorem Move.prefix_outcomes_apply (m : Move σ) : m.session.outcomes <+: m.apply.outcomes := by
  cases h : m.progress with
  | await call task =>
    rw [apply_await h, await_eq]
    exact List.prefix_append _ _
  | done outcome =>
    rw [apply_done h]
    exact List.prefix_append _ _

/-- **An outcome that has been filed stays.** -/
theorem stable_outcomes (outcomes : List (Ticket × Outcome)) :
    Stable (fun s : Session σ => outcomes <+: s.outcomes) where
  send {s} command h := by
    cases hr : s.isRunning with
    | true => rwa [send_of_isRunning hr]
    | false =>
      rw [send_of_not_isRunning hr]
      exact h.trans (List.prefix_append _ _)
  begin {s m} hm h := by
    refine List.IsPrefix.trans ?_ m.prefix_outcomes_apply
    obtain ⟨ticket, command, queue, -, rfl⟩ := exists_of_begin? hm
    exact h
  resume {s _ _ m} hm h := by
    refine List.IsPrefix.trans ?_ m.prefix_outcomes_apply
    obtain ⟨p, -, rfl⟩ := exists_of_resume? hm
    exact h
  countDispatched h := h
  collect h := h
  closeQueue h := h
  dropNext {s} h := by
    match hq : s.queue with
    | [] => rwa [dropNext, hq]
    | (ticket, command) :: queue =>
      rw [dropNext_cons hq]
      exact h.trans (List.prefix_append _ _)
  tearDown h := by
    rw [tearDown_eq]
    exact h.trans (List.prefix_append _ _)

namespace Loop

theorem isRunning_of_run {l : Loop σ} {es : List Event}
    (h : (l.run es).session.isRunning = true) : l.session.isRunning = true := by
  by_contra hl
  rw [Bool.not_eq_true] at hl
  exact absurd ((stable_not_isRunning.run hl es).symm.trans h) Bool.false_ne_true

/-- **While the session runs, every outcome is one that a query ended with.** -/
theorem outcomes_run_of_isRunning {l : Loop σ} (hl : l.Consistent) {es : List Event}
    (hes : l.keepsCalls es = true) (hrunning : (l.run es).session.isRunning = true) :
    (l.run es).session.outcomes = l.session.outcomes ++ l.resolutions es := by
  induction es generalizing l with
  | nil => simp [resolutions]
  | cons e es ih =>
    rw [keepsCalls, Bool.and_eq_true] at hes
    obtain ⟨dropped, houtcomes, hdropped⟩ := outcomes_step hl hes.1
    rw [hdropped (isRunning_of_run hrunning), List.map_nil, List.append_nil] at houtcomes
    rw [run_cons, ih (hl.step e) hes.2 hrunning, houtcomes, List.append_assoc, resolutions]

theorem ne_closed_of_mem_resolutions {l : Loop σ} {es : List Event} {o : Ticket × Outcome}
    (h : o ∈ l.resolutions es) : o.2 ≠ .error .closed := by
  induction es generalizing l with
  | nil => simp [resolutions] at h
  | cons e es ih =>
    rcases List.mem_append.mp h with h | h
    · exact ne_closed_of_resolution? (Option.mem_toList.mp h)
    · exact ih h

end Loop

end Session

end PlatformProxy
