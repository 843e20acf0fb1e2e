import PlatformProxy.Proofs.Session.Progress

/-!
# Queries that do not interfere

All queries share the tables of one session and the handles, the queue and the open resources of
one client. Nevertheless a command on the simulator gets the reply that it would get as the only
command of a session, whatever else is asked, in whatever order commands arrive and completions
are dispatched.

Both sessions are runs, with different handles. What they have in common is the answer that the
recorded state of the platform gives to the command, `Platform.World.reply`.

## Main definitions

* `Session.Gives` — the outcome that a command gets in the end

## Main results

* `Session.Loop.outcomes_of_isIdle` — once nothing is left to do, every command has its answer
* `Session.Loop.gives_reply` — a command that arrives between two rounds gets its answer
* `Session.Loop.queries_do_not_interfere` — the answer it gets on its own
-/

namespace PlatformProxy

namespace Session

open Platform Query

/-- A command gets an outcome, once the session has had rounds enough. -/
def Gives (s : Session Simulator) (command : Command) (outcome : Outcome) : Prop :=
  ∃ n, ∀ m, n ≤ m → ((s.send command).2.settle m).outcome? (s.send command).1 = some outcome

namespace Loop

variable {w : World} {scope : Scope} {commands : List Command}

/-- **Once nothing is left to do, every command has its answer**, and no other. -/
theorem outcomes_of_isIdle {l : Loop Simulator} (h : l.InStep w scope commands)
    (hidle : l.session.isBusy = false) (hclosed : ∀ o ∈ l.session.outcomes, o.2 ≠ .error .closed)
    {t : Ticket} {command : Command} (ht : commands[t]? = some command) :
    l.session.outcomes.filter (fun o => o.1 = t) = [(t, w.reply scope command)] := by
  obtain ⟨hqueue, hpending⟩ := isBusy_eq_false.mp hidle
  have hlt : t < l.session.nextTicket := by
    rw [h.count]
    exact (List.getElem?_eq_some_iff.mp ht).1
  obtain ⟨outcome, houtcome⟩ := h.ledger.exists_outcome hqueue hpending hlt
  obtain ⟨command', hcommand', hreply⟩ := h.matched.outcomes _ houtcome (hclosed _ houtcome)
  obtain rfl : command' = command := Option.some.inj (hcommand'.symm.trans ht)
  rw [h.origins.sameScope] at hreply
  rw [← hreply]
  exact Keyed.filter_eq_singleton h.ledger.nodup_outcomes houtcome

/-- As long as the loop is not told to stop, nothing is closed to a command. -/
theorem ne_closed_of_run {l : Loop Simulator} (h : l.InStep w scope [])
    (hopen : l.stage.isOpen = true) (hstop : l.stopRequested = false) {es : List Event}
    (hes : .stop ∉ es) : ∀ o ∈ (l.run es).session.outcomes, o.2 ≠ .error .closed := by
  have hnone : l.session.outcomes = [] := by
    have htickets := h.ledger.tickets
    rw [h.count] at htickets
    exact List.map_eq_nil_iff.mp (List.append_eq_nil_iff.mp htickets.eq_nil).2
  have hrunning : (l.run es).session.isRunning = true := by
    rw [(h.consistent.run es).isRunning]
    exact (isOpen_run hopen hstop hes).1
  intro o ho
  rw [outcomes_run_of_isRunning h.consistent (h.keepsCalls es) hrunning, hnone] at ho
  exact ne_closed_of_mem_resolutions ho

/-- A session between two rounds settles in a state of a run in which nothing more is sent. -/
theorem exists_settled {l : Loop Simulator} (h : l.InStep w scope [])
    (hopen : l.stage.isOpen = true) (hstop : l.stopRequested = false) {es : List Event}
    (hes : .stop ∉ es) (hstage : (l.run es).stage = .accepting) :
    ∃ n, ∀ m, n ≤ m → ∃ l' : Loop Simulator, l'.session = settle m (l.run es).session ∧
      l'.InStep w scope (sent es) ∧ l'.session.isBusy = false ∧
        ∀ o ∈ l'.session.outcomes, o.2 ≠ .error .closed := by
  have hbefore : (l.run es).InStep w scope (sent es) := h.run es
  have hstop' := (isOpen_run hopen hstop hes).2
  refine ⟨(l.run es).potential + 1, fun m hm => ?_⟩
  obtain ⟨more, hnone, hmore, hsession, -⟩ :=
    exists_run_settle hbefore.consistent hstage hstop' m
  have hafter := hbefore.run more
  have hclosed := ne_closed_of_run h hopen hstop (show Event.stop ∉ es ++ more by simp [hes, hmore])
  rw [hnone, List.append_nil] at hafter
  rw [run_append] at hclosed
  exact ⟨_, hsession, hafter, hsession ▸ isIdle_settle hbefore hstage hstop' hm, hclosed⟩

/-- A command on its own gets its answer in the end. -/
theorem outcomes_settle {l : Loop Simulator} (h : l.InStep w scope [])
    (hstage : l.stage = .accepting) (hstop : l.stopRequested = false) (command : Command) :
    ∃ n, ∀ m, n ≤ m → (settle m (l.session.send command).2).outcomes =
      [(0, w.reply scope command)] := by
  have hopen : l.stage.isOpen = true := by rw [hstage, Stage.isOpen]
  have hsend : Event.stop ∉ [Event.send command] := by simp
  obtain ⟨n, hn⟩ := exists_settled h hopen hstop hsend hstage
  refine ⟨n, fun m hm => ?_⟩
  obtain ⟨l', hsession, hinstep, hidle, hclosed⟩ := hn m hm
  have hall : ∀ o ∈ l'.session.outcomes, o.1 = 0 := by
    intro o ho
    have hticket := hinstep.ledger.tickets.mem_iff.mp
      (List.mem_append_right _ (List.mem_map_of_mem ho))
    rw [hinstep.count] at hticket
    exact Nat.lt_one_iff.mp (List.mem_range.mp hticket)
  rw [← outcomes_of_isIdle hinstep hidle hclosed (t := 0) rfl, hsession]
  rw [hsession] at hall
  exact (List.filter_eq_self.mpr fun o ho => decide_eq_true (hall o ho)).symm

/-- A command that arrives between two rounds gets its answer in the end, whatever has happened
before. -/
theorem gives_reply {l : Loop Simulator} (h : l.InStep w scope []) (hopen : l.stage.isOpen = true)
    (hstop : l.stopRequested = false) {es : List Event} (hes : .stop ∉ es)
    (hstage : (l.run es).stage = .accepting) (command : Command) :
    (l.run es).session.Gives command (w.reply scope command) := by
  have hstep : l.run (es ++ [.send command]) = (l.run es).step (.send command) := by
    rw [run_append, run_cons, run_nil]
  have hsend : Event.stop ∉ es ++ [.send command] := by simpa using hes
  obtain ⟨n, hn⟩ := exists_settled h hopen hstop hsend (by rwa [hstep])
  refine ⟨n, fun m hm => ?_⟩
  obtain ⟨l', hsession, hinstep, hidle, hclosed⟩ := hn m hm
  have hticket : (sent (es ++ [.send command]))[(l.run es).session.nextTicket]? = some command := by
    rw [(h.run es).count, List.nil_append, sent_append]
    exact List.getElem?_concat_length
  have hfilter := outcomes_of_isIdle hinstep hidle hclosed hticket
  rw [hsession, hstep] at hfilter
  rw [outcome?, ← List.head?_filter]
  exact congrArg (fun found => found.head?.map Prod.snd) hfilter

/-- **Queries do not interfere.** Whatever commands arrive and whenever they do, in whatever order
completions are dispatched and whatever comes among them, a session that is not told to stop comes
to rest, and every command has had one reply: the one it gets as the only command of a session. -/
theorem queries_do_not_interfere (snapshot : Snapshot) (failures : List Outage) (scope : Scope) :
    ∃ s : Session Simulator, start { Simulator.new snapshot with failures } scope = .ok s ∧
      ∀ es, .stop ∉ es →
        (∃ n, ∀ more, sent more = [] → .stop ∉ more → n ≤ ((ofSession s).run (es ++ more)).rounds →
          ((ofSession s).run (es ++ more)).session.isBusy = false) ∧
        (∃ more, sent more = [] ∧ .stop ∉ more ∧
          ((ofSession s).run (es ++ more)).session.isBusy = false) ∧
        (((ofSession s).run es).session.isBusy = false →
          ∀ t command, (sent es)[t]? = some command →
            ∃ outcome,
              ((ofSession s).run es).session.outcomes.filter (fun o => o.1 = t) = [(t, outcome)] ∧
              ∃ n, ∀ m, n ≤ m → (settle m (s.send command).2).outcomes = [(0, outcome)]) := by
  obtain ⟨s, hs, h⟩ := exists_start snapshot failures scope
  refine ⟨s, hs, fun es hes => ?_⟩
  have hrun := h.run es
  obtain ⟨hopen, hstop⟩ := isOpen_run (l := ofSession s) rfl rfl hes
  refine ⟨⟨((ofSession s).run es).potential + 1, fun more hsent hmore hrounds => ?_⟩, ?_,
    fun hidle t command ht => ?_⟩
  · rw [run_append] at hrounds ⊢
    exact isIdle_of_rounds hrun hopen hstop hsent hmore hrounds
  · obtain ⟨more, hsent, hmore, hidle⟩ := exists_run_isIdle hrun hopen hstop
    exact ⟨more, hsent, hmore, by rwa [run_append]⟩
  · rw [List.nil_append] at hrun
    exact ⟨World.reply ⟨snapshot, failures⟩ scope command,
      outcomes_of_isIdle hrun hidle (ne_closed_of_run h rfl rfl hes) ht,
      outcomes_settle h rfl rfl command⟩

end Loop

end Session

end PlatformProxy
