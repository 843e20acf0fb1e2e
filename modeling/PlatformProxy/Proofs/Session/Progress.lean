import PlatformProxy.Proofs.Session.Matching

/-!
# How long queries take

Every step of a query makes it lighter, so the weight of all that is left goes down with each
step. On the simulator every completion is there when the next round collects, so each round makes
a step for every query that waits, and a session to which no commands arrive has nothing left
to do after as many rounds as it had work.

## Main definitions

* `Session.work` — the weight of everything in the queue and of everything that waits
* `Session.Loop.potential` — the rounds that are over, and those that may be still to come

## Main results

* `Session.Loop.InStep.isIdle_run` — after enough rounds every command has an outcome
* `Session.Loop.exists_run_settle` — settling a session is a run
-/

namespace PlatformProxy

namespace Session

open Platform Query

variable {σ : Type}

/-- The weight of everything in the queue and of everything that waits. -/
def work (s : Session σ) : Nat :=
  (s.queue.map fun q => q.2.weight).sum + (s.pending.map fun p => p.2.task.weight).sum

theorem isBusy_eq_false {s : Session σ} : s.isBusy = false ↔ s.queue = [] ∧ s.pending = [] := by
  simp [isBusy]

/-- A step of a query takes away from its weight. -/
theorem Move.work_apply_lt {m : Move σ} {weight : Nat} (hweight : 0 < weight)
    (hfollows : m.progress.Follows weight) (hfresh : m.isFresh = true) :
    m.apply.work < m.session.work + weight := by
  cases hm : m.progress with
  | done outcome =>
    rw [apply_done hm]
    exact Nat.lt_add_of_pos_right hweight
  | await call task =>
    have hcall : m.session.isAwaited call = false := by simpa [isFresh, hm] using hfresh
    have hlighter : task.weight < weight := by rwa [hm] at hfollows
    rw [apply_await hm, await_of_not_isAwaited hcall]
    simp only [work, List.map_cons, List.sum_cons]
    omega

variable [Client σ]

theorem work_begin_lt {s : Session σ} {m : Move σ} (hm : s.begin? = some m)
    (hfresh : m.isFresh = true) : m.apply.work < s.work := by
  obtain ⟨ticket, command, queue, hq, rfl⟩ := exists_of_begin? hm
  refine Nat.lt_of_lt_of_eq (Move.work_apply_lt command.weight_pos
    (command.follows_start s.scope s.client) hfresh) ?_
  simp only [work, hq, List.map_cons, List.sum_cons]
  omega

theorem work_resume_lt {s : Session σ} (hcalls : (s.pending.map Prod.fst).Nodup) {call : CallRef}
    {completion : Completion} {m : Move σ} (hm : s.resume? call completion = some m)
    (hfresh : m.isFresh = true) : m.apply.work < s.work := by
  obtain ⟨p, hp, rfl⟩ := exists_of_resume? hm
  have hpending := ((Keyed.perm_cons_filter hcalls hp).map fun q => q.2.task.weight).sum_nat
  refine Nat.lt_of_lt_of_eq (Move.work_apply_lt p.task.weight_pos
    (p.task.follows_advance completion s.client) hfresh) ?_
  simp only [List.map_cons, List.sum_cons] at hpending
  simp only [work]
  omega

namespace Loop

/-! ### Nothing to do -/

/-- Unless a command arrives, a session that has nothing to do has nothing to do later. -/
theorem isIdle_step {l : Loop σ} (hidle : l.session.isBusy = false) {e : Event}
    (he : sent [e] = []) : (l.step e).session.isBusy = false := by
  have hempty := isBusy_eq_false.mp hidle
  cases hm : l.move? e with
  | some m =>
    exfalso
    rcases (exists_of_move? hm).2 with hm | ⟨call, completion, hm⟩
    · obtain ⟨ticket, command, queue, hq, -⟩ := exists_of_begin? hm
      rw [hempty.1] at hq
      exact List.cons_ne_nil _ _ hq.symm
    · obtain ⟨p, hp, -⟩ := exists_of_resume? hm
      rw [show l.session.countDispatched.pending = [] from hempty.2] at hp
      exact List.not_mem_nil hp
  | none =>
    rcases session_step_of_move?_eq_none hm with
      hs | hs | ⟨command, rfl, hs⟩ | ⟨-, hs⟩ | hs | ⟨-, hs⟩ | ⟨-, hs⟩
    · rwa [hs]
    · rwa [hs]
    · exact absurd he (by simp [sent])
    · rwa [hs]
    · rwa [hs]
    · rwa [hs, dropNext, hempty.1]
    · rw [hs, tearDown_eq, isBusy_eq_false]
      exact ⟨hempty.1, rfl⟩

theorem isIdle_run {l : Loop σ} (hidle : l.session.isBusy = false) {es : List Event}
    (hes : sent es = []) : (l.run es).session.isBusy = false := by
  induction es generalizing l with
  | nil => exact hidle
  | cons e es ih =>
    have hsent : sent [e] ++ sent es = [] := (sent_append [e] es).symm.trans hes
    have hnil := List.append_eq_nil_iff.mp hsent
    exact ih (isIdle_step hidle hnil.1) hnil.2

/-! ### Rounds -/

/-- A round whose batch has been dispatched is not over yet, though its work has been done. -/
def lag : Stage → Nat
  | .dispatching [] => 1
  | _ => 0

theorem lag_le_one (stage : Stage) : lag stage ≤ 1 := by
  unfold lag
  split <;> omega

/-- The rounds that are over, and those that may be still to come. -/
def potential (l : Loop σ) : Nat := l.rounds + l.session.work + lag l.stage

variable {w : World} {scope : Scope} {commands : List Command}

/-- A query that waits when completions are collected gets its own. -/
theorem isIdle_collect {s : Session Simulator} (h : s.Matched w commands [])
    (hrunning : s.isRunning = true) (hqueue : s.queue = []) (hbatch : s.collect.1 = []) :
    s.collect.2.isBusy = false := by
  have hcalls := h.collect.calls
  have hcollect := Simulator.run_collect_of_isStarted (h.started hrunning)
  have hcompletions : s.collect.2.client.completions = [] := by
    rw [collect_eq, hcollect]
  rw [hbatch, hcompletions] at hcalls
  have hpending := hcalls.perm.symm.eq_nil
  rw [List.map_eq_nil_iff] at hpending
  exact isBusy_eq_false.mpr ⟨hqueue, hpending⟩

/-- A query that is started makes its first step. -/
theorem potential_accept {l : Loop Simulator} (h : l.InStep w scope commands)
    (hstage : l.stage = .accepting) :
    potential { l with session := l.session.acceptNext } ≤ l.potential := by
  cases hm : l.session.begin? with
  | none =>
    rw [acceptNext, hm]
    exact Nat.le_refl _
  | some m =>
    have hmove : l.move? .accept = some m := by simp only [move?, hstage, hm]
    have hlt := work_begin_lt hm (h.isFresh_of_move? hmove)
    rw [acceptNext_of_begin? hm]
    simp only [potential]
    omega

/-- A round with nothing to dispatch begins only if nothing waits. -/
theorem potential_collect {l : Loop Simulator} (h : l.InStep w scope commands)
    (hopen : l.stage.isOpen = true) (hstage : l.stage = .accepting)
    (hqueue : l.session.queue = []) :
    l.session.collect.2.isBusy = false ∨
      potential
        { l with
          session := l.session.collect.2
          stage := .dispatching l.session.collect.1 } ≤ l.potential := by
  have hmatched := h.matched
  rw [hstage] at hmatched
  have hrunning : l.session.isRunning = true := h.consistent.isRunning.trans hopen
  cases hbatch : l.session.collect.1 with
  | nil => exact Or.inl (isIdle_collect hmatched hrunning hqueue hbatch)
  | cons c batch =>
    right
    simp only [potential, hstage, lag]
    exact Nat.le_refl _

/-- A completion that is dispatched makes a step of the query that waits for it. -/
theorem potential_dispatch {l : Loop Simulator} (h : l.InStep w scope commands)
    {batch : List (CallRef × Completion)} (hstage : l.stage = .dispatching batch) {place : Nat}
    {c : CallRef × Completion} (hplace : batch[place]? = some c) :
    potential
      { l with
        session := l.session.route c.1 c.2
        stage := .dispatching (batch.eraseIdx place) } ≤ l.potential := by
  have hmatched := h.matched.countDispatched
  rw [hstage] at hmatched
  have hc : c ∈ batch := List.mem_of_getElem? hplace
  obtain ⟨p, hp⟩ := hmatched.exists_pending (List.mem_append_left _ hc)
  obtain ⟨m, hm⟩ : ∃ m, l.session.countDispatched.resume? c.1 c.2 = some m :=
    ⟨_, resume?_of_mem hmatched.calls.nodup_keys hp⟩
  have hmove : l.move? (.dispatch place) = some m := by
    simp only [move?, hstage, Stage.batch, hplace, hm]
  have hlt : m.apply.work < l.session.work :=
    work_resume_lt hmatched.calls.nodup_keys hm (h.isFresh_of_move? hmove)
  have hlag : lag (.dispatching batch) = 0 := by
    cases batch with
    | nil => exact absurd hc List.not_mem_nil
    | cons c batch => rfl
  have hle := lag_le_one (.dispatching (batch.eraseIdx place))
  simp only [potential, route_of_resume? hm, hstage, hlag]
  omega

/-- **As long as there is something to do, a round costs a step of a query.** -/
theorem potential_step {l : Loop Simulator} (h : l.InStep w scope commands)
    (hopen : l.stage.isOpen = true) (hstop : l.stopRequested = false) {e : Event}
    (he : sent [e] = []) :
    (l.step e).session.isBusy = false ∨ (l.step e).potential ≤ l.potential := by
  have hnot : l.stage ≠ .closing := by
    intro hclosing
    rw [hclosing] at hopen
    exact absurd hopen Bool.false_ne_true
  have hsteps := l.steps e
  generalize l.step e = l' at hsteps ⊢
  cases hsteps with
  | send command => exact absurd he (by simp [sent])
  | idle | stop => exact Or.inr (Nat.le_refl _)
  | accept hstage => exact Or.inr (potential_accept h hstage)
  | collect hstage hqueue => exact potential_collect h hopen hstage hqueue
  | dispatch hstage hplace => exact Or.inr (potential_dispatch h hstage hplace)
  | stray hstage completion hcall =>
    right
    rw [route_of_not_isAwaited completion hcall]
    exact Nat.le_refl _
  | nextRound hstage =>
    right
    simp only [potential, hstage, lag]
    omega
  | close hstage hrequested =>
    exact absurd (hstop.symm.trans hrequested) Bool.false_ne_true
  | drop hstage => exact absurd hstage hnot
  | tearDown hstage => exact absurd hstage hnot

theorem potential_run {l : Loop Simulator} (h : l.InStep w scope commands)
    (hopen : l.stage.isOpen = true) (hstop : l.stopRequested = false) {es : List Event}
    (hsent : sent es = []) (hes : .stop ∉ es) :
    (l.run es).session.isBusy = false ∨ (l.run es).potential ≤ l.potential := by
  induction es generalizing l commands with
  | nil => exact Or.inr (Nat.le_refl _)
  | cons e es ih =>
    have happend : sent [e] ++ sent es = [] := (sent_append [e] es).symm.trans hsent
    obtain ⟨he, hsent⟩ := List.append_eq_nil_iff.mp happend
    rw [List.mem_cons, not_or] at hes
    rcases potential_step h hopen hstop he with hidle | hle
    · exact Or.inl (isIdle_run hidle hsent)
    · have hstay := isOpen_run hopen hstop (show Event.stop ∉ [e] by simpa using hes.1)
      rcases ih (h.step e) hstay.1 hstay.2 hsent hes.2 with hidle | hle'
      · exact Or.inl hidle
      · exact Or.inr (Nat.le_trans hle' hle)

/-- **After enough rounds every command has an outcome**, if no more commands arrive. -/
theorem isIdle_of_rounds {l : Loop Simulator} (h : l.InStep w scope commands)
    (hopen : l.stage.isOpen = true) (hstop : l.stopRequested = false) {es : List Event}
    (hsent : sent es = []) (hes : .stop ∉ es) (hrounds : l.potential < (l.run es).rounds) :
    (l.run es).session.isBusy = false := by
  rcases potential_run h hopen hstop hsent hes with hidle | hle
  · exact hidle
  · have hpotential : (l.run es).rounds ≤ (l.run es).potential :=
      Nat.le_trans (Nat.le_add_right _ _) (Nat.le_add_right _ _)
    omega

/-! ### Settling -/

theorem run_round {l : Loop σ} (hl : l.Consistent) (hstage : l.stage = .accepting)
    (hstop : l.stopRequested = false) :
    l.run (roundEvents l.session ++ [.endRound]) =
      { l with session := l.session.round, rounds := l.rounds + 1 } := by
  have hrunning : l.session.isRunning = true := by rw [hl.isRunning, hstage, Stage.isOpen]
  rw [run_append, run_roundEvents hstage, run_cons, run_nil, round, if_pos hrunning]
  simp only [step, endRound, hstop, Bool.false_eq_true, if_false, hstage]

theorem stop_notMem_roundEvents (s : Session σ) : .stop ∉ roundEvents s := by
  simp [roundEvents]

/-- **Settling a session is a run**, of as many rounds as it takes. -/
theorem exists_run_settle {l : Loop σ} (hl : l.Consistent) (hstage : l.stage = .accepting)
    (hstop : l.stopRequested = false) (n : Nat) :
    ∃ es, sent es = [] ∧ .stop ∉ es ∧ (l.run es).session = settle n l.session ∧
      ((settle n l.session).isBusy = true → (l.run es).rounds = l.rounds + n) := by
  induction n generalizing l with
  | zero => exact ⟨[], rfl, List.not_mem_nil, rfl, fun _ => rfl⟩
  | succ n ih =>
    rw [settle]
    split <;> rename_i hbusy
    · have hround := run_round hl hstage hstop
      have hconsistent := hl.run (roundEvents l.session ++ [.endRound])
      rw [hround] at hconsistent
      obtain ⟨es, hsent, hes, hsession, hrounds⟩ := ih hconsistent hstage hstop
      refine ⟨roundEvents l.session ++ [.endRound] ++ es, ?_, ?_, ?_, fun h => ?_⟩
      · rw [sent_append, sent_append, sent_roundEvents, hsent]
        rfl
      · simpa [stop_notMem_roundEvents] using hes
      · rw [run_append, hround, hsession]
      · rw [run_append, hround, hrounds h]
        exact Nat.succ_add_eq_add_succ _ _
    · exact ⟨[], rfl, List.not_mem_nil, rfl, fun h => absurd h hbusy⟩

theorem isIdle_settle {l : Loop Simulator} (h : l.InStep w scope commands)
    (hstage : l.stage = .accepting) (hstop : l.stopRequested = false) {n : Nat}
    (hn : l.potential < n) : (settle n l.session).isBusy = false := by
  have hopen : l.stage.isOpen = true := by rw [hstage, Stage.isOpen]
  obtain ⟨es, hsent, hes, hsession, hrounds⟩ := exists_run_settle h.consistent hstage hstop n
  cases hbusy : (settle n l.session).isBusy with
  | false => rfl
  | true =>
    have hidle := isIdle_of_rounds h hopen hstop hsent hes (by rw [hrounds hbusy]; omega)
    rwa [hsession, hbusy] at hidle

/-- A round that has begun can be brought to its end. -/
theorem exists_run_accepting {l : Loop σ} (hopen : l.stage.isOpen = true)
    (hstop : l.stopRequested = false) :
    ∃ es, sent es = [] ∧ .stop ∉ es ∧ (l.run es).stage = .accepting := by
  cases hstage : l.stage with
  | accepting => exact ⟨[], rfl, List.not_mem_nil, hstage⟩
  | dispatching batch =>
    refine ⟨List.replicate batch.length (.dispatch 0) ++ [.endRound], ?_, by simp, ?_⟩
    · rw [sent_append, sent_replicate rfl]
      rfl
    · rw [run_append, run_dispatches hstage, run_cons, run_nil]
      simp only [step, endRound, hstop, Bool.false_eq_true, if_false]
  | closing | ended =>
    rw [hstage] at hopen
    exact absurd hopen Bool.false_ne_true

/-- **A session can always come to rest.** -/
theorem exists_run_isIdle {l : Loop Simulator} (h : l.InStep w scope commands)
    (hopen : l.stage.isOpen = true) (hstop : l.stopRequested = false) :
    ∃ es, sent es = [] ∧ .stop ∉ es ∧ (l.run es).session.isBusy = false := by
  obtain ⟨es₁, hsent₁, hes₁, hstage⟩ := exists_run_accepting hopen hstop
  have hrun := h.run es₁
  have hstop₁ := (isOpen_run hopen hstop hes₁).2
  obtain ⟨es₂, hsent₂, hes₂, hsession, -⟩ := exists_run_settle hrun.consistent hstage hstop₁
    ((l.run es₁).potential + 1)
  refine ⟨es₁ ++ es₂, ?_, ?_, ?_⟩
  · rw [sent_append, hsent₁, hsent₂, List.append_nil]
  · simp [hes₁, hes₂]
  · rw [run_append, hsession]
    exact isIdle_settle hrun hstage hstop₁ (Nat.lt_succ_self _)

end Loop

end Session

end PlatformProxy
