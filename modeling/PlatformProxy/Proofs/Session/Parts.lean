import PlatformProxy.Proofs.Keyed
import PlatformProxy.Session

/-!
# The parts of a round

What each part of a round does to the session, and what it leaves alone. A query moves when its
command is started or when its completion is routed; both end in `Session.Move.apply`, so what
they have in common is said once, of moves.

## Main results

* `Session.await_eq`, `Session.await_of_not_isAwaited` — what waiting for a call drops
* `Session.Move.apply_eq` — a move changes the outcomes and the queries that wait
* `Session.exists_of_begin?`, `Session.exists_of_resume?` — what a move comes from
* `Session.begin?_cons`, `Session.resume?_of_mem` — and when there is one
-/

namespace PlatformProxy

namespace Session

open Platform

variable {σ : Type}

/-- Whether a query waits for a call. -/
def isAwaited (s : Session σ) (call : CallRef) : Bool := s.pending.any fun p => p.1 = call

theorem isAwaited_eq_false {s : Session σ} {call : CallRef} :
    s.isAwaited call = false ↔ ∀ p ∈ s.pending, p.1 ≠ call := by
  simp [isAwaited]

theorem isAwaited_of_mem {s : Session σ} {call : CallRef} {p : Pending}
    (h : (call, p) ∈ s.pending) : s.isAwaited call = true := by
  simp only [isAwaited, List.any_eq_true, decide_eq_true_eq]
  exact ⟨_, h, rfl⟩

/-! ### Dropping and waiting -/

theorem abandon_eq (s : Session σ) (tickets : List Ticket) :
    s.abandon tickets =
      { s with outcomes := s.outcomes ++ tickets.map fun t => (t, .error .closed) } := by
  induction tickets generalizing s with
  | nil => simp [abandon]
  | cons t tickets ih =>
    have h : s.abandon (t :: tickets) = (s.resolve t (.error .closed)).abandon tickets := rfl
    rw [h, ih]
    simp [resolve]

/-- Waiting for a call drops whoever waits for a call of the same handle. -/
theorem await_eq (s : Session σ) (call : CallRef) (p : Pending) :
    s.await call p =
      { s with
        outcomes := s.outcomes ++
          (s.pending.filter fun q => q.1 = call).map fun q => (q.2.ticket, .error .closed)
        pending := (call, p) :: s.pending.filter fun q => q.1 ≠ call } := by
  simp [await, abandon_eq, Function.comp_def]

theorem await_of_not_isAwaited {s : Session σ} {call : CallRef} (h : s.isAwaited call = false)
    (p : Pending) : s.await call p = { s with pending := (call, p) :: s.pending } := by
  rw [isAwaited_eq_false] at h
  have hdropped : (s.pending.filter fun q => q.1 = call) = [] :=
    List.filter_eq_nil_iff.mpr fun q hq => by simpa using h q hq
  have hkept : (s.pending.filter fun q => q.1 ≠ call) = s.pending :=
    List.filter_eq_self.mpr fun q hq => by simpa using h q hq
  rw [await_eq, hdropped, hkept]
  simp

/-! ### Arrival, collection and end -/

theorem exists_of_start [Client σ] {client : σ} {scope : Query.Scope} {s : Session σ}
    (h : start client scope = .ok s) :
    (Client.start.run client).1 = .ok () ∧
      s = ⟨(Client.start.run client).2, scope, 0, [], [], [], 0, true⟩ := by
  rw [start] at h
  split at h
  · simp at h
  · rename_i hstart
    rw [hstart]
    exact ⟨rfl, (Except.ok.inj h).symm⟩

theorem send_of_isRunning {s : Session σ} (h : s.isRunning = true) (command : Command) :
    (s.send command).2 =
      { s with
        nextTicket := s.nextTicket + 1
        queue := s.queue ++ [(s.nextTicket, command)] } := by
  simp [send, h]

theorem send_of_not_isRunning {s : Session σ} (h : s.isRunning = false) (command : Command) :
    (s.send command).2 =
      { s with
        nextTicket := s.nextTicket + 1
        outcomes := s.outcomes ++ [(s.nextTicket, .error .closed)] } := by
  simp [send, h, resolve]

theorem client_send (s : Session σ) (command : Command) :
    (s.send command).2.client = s.client := by
  cases h : s.isRunning with
  | true => rw [send_of_isRunning h]
  | false => rw [send_of_not_isRunning h]

theorem nextTicket_send (s : Session σ) (command : Command) :
    (s.send command).2.nextTicket = s.nextTicket + 1 := by
  cases h : s.isRunning with
  | true => rw [send_of_isRunning h]
  | false => rw [send_of_not_isRunning h]

theorem isRunning_send (s : Session σ) (command : Command) :
    (s.send command).2.isRunning = s.isRunning := by
  cases h : s.isRunning with
  | true => rw [send_of_isRunning h, h]
  | false => rw [send_of_not_isRunning h, h]

theorem dropNext_cons {s : Session σ} {ticket : Ticket} {command : Command}
    {queue : List (Ticket × Command)} (h : s.queue = (ticket, command) :: queue) :
    s.dropNext = { s with queue, outcomes := s.outcomes ++ [(ticket, .error .closed)] } := by
  rw [dropNext, h]
  rfl

/-- Dropping a command changes nothing but the queue and the outcomes. -/
theorem dropNext_eq (s : Session σ) :
    s.dropNext = { s with queue := s.dropNext.queue, outcomes := s.dropNext.outcomes } := by
  match hq : s.queue with
  | [] => rw [dropNext, hq]
  | (ticket, command) :: queue => rw [dropNext_cons hq]

@[simp] theorem isRunning_dropNext (s : Session σ) : s.dropNext.isRunning = s.isRunning := by
  rw [dropNext_eq]

@[simp] theorem nextTicket_dropNext (s : Session σ) : s.dropNext.nextTicket = s.nextTicket := by
  rw [dropNext_eq]

theorem collect_eq [Client σ] (s : Session σ) :
    s.collect = ((Client.collect.run s.client).1,
      { s with client := (Client.collect.run s.client).2 }) :=
  rfl

theorem tearDown_eq [Client σ] (s : Session σ) :
    s.tearDown =
      { s with
        outcomes := s.outcomes ++ s.pending.map fun p => (p.2.ticket, .error .closed)
        pending := []
        client := (Client.stop.run s.client).2 } := by
  rw [tearDown, abandon_eq, List.map_map]
  rfl

/-! ### Moves -/

theorem Move.apply_done {m : Move σ} {outcome : Outcome} (h : m.progress = .done outcome) :
    m.apply = m.session.resolve m.ticket outcome := by
  simp only [apply, h]

theorem Move.apply_await {m : Move σ} {call : CallRef} {task : Task}
    (h : m.progress = .await call task) : m.apply = m.session.await call ⟨m.ticket, task⟩ := by
  simp only [apply, h]

/-- A move changes nothing but the outcomes and the queries that wait. -/
theorem Move.apply_eq (m : Move σ) :
    m.apply = { m.session with outcomes := m.apply.outcomes, pending := m.apply.pending } := by
  cases h : m.progress with
  | await call task => simp [apply_await h, await_eq]
  | done outcome => simp [apply_done h, resolve]

@[simp] theorem Move.queue_apply (m : Move σ) : m.apply.queue = m.session.queue := by
  rw [apply_eq]

@[simp] theorem Move.client_apply (m : Move σ) : m.apply.client = m.session.client := by
  rw [apply_eq]

@[simp] theorem Move.nextTicket_apply (m : Move σ) :
    m.apply.nextTicket = m.session.nextTicket := by
  rw [apply_eq]

@[simp] theorem Move.isRunning_apply (m : Move σ) : m.apply.isRunning = m.session.isRunning := by
  rw [apply_eq]

variable [Client σ]

theorem begin?_cons {s : Session σ} {ticket : Ticket} {command : Command}
    {queue : List (Ticket × Command)} (h : s.queue = (ticket, command) :: queue) :
    s.begin? = some
      ⟨{ s with queue, client := ((command.start s.scope).run s.client).2 }, ticket,
        ((command.start s.scope).run s.client).1⟩ := by
  rw [begin?, h]
  rfl

theorem exists_of_begin? {s : Session σ} {m : Move σ} (h : s.begin? = some m) :
    ∃ ticket command queue, s.queue = (ticket, command) :: queue ∧
      m = ⟨{ s with queue, client := ((command.start s.scope).run s.client).2 }, ticket,
        ((command.start s.scope).run s.client).1⟩ := by
  match hq : s.queue with
  | [] => simp [begin?, hq] at h
  | (ticket, command) :: queue =>
    rw [begin?_cons hq] at h
    exact ⟨ticket, command, queue, rfl, (Option.some.inj h).symm⟩

theorem resume?_of_find? {s : Session σ} {call : CallRef} {completion : Completion}
    {q : CallRef × Pending} (h : (s.pending.find? fun p => p.1 = call) = some q) :
    s.resume? call completion = some
      ⟨{ s with
          pending := s.pending.filter fun p => p.1 ≠ call
          client := ((q.2.task.advance completion).run s.client).2 }, q.2.ticket,
        ((q.2.task.advance completion).run s.client).1⟩ := by
  rw [resume?, h]
  rfl

theorem resume?_of_mem {s : Session σ} {call : CallRef} {completion : Completion} {p : Pending}
    (hs : (s.pending.map Prod.fst).Nodup) (h : (call, p) ∈ s.pending) :
    s.resume? call completion = some
      ⟨{ s with
          pending := s.pending.filter fun p => p.1 ≠ call
          client := ((p.task.advance completion).run s.client).2 }, p.ticket,
        ((p.task.advance completion).run s.client).1⟩ :=
  resume?_of_find? (Keyed.find?_eq_some hs h)

theorem resume?_of_not_isAwaited {s : Session σ} {call : CallRef} {completion : Completion}
    (h : s.isAwaited call = false) : s.resume? call completion = none := by
  rw [isAwaited_eq_false] at h
  have hnone : (s.pending.find? fun p => p.1 = call) = none :=
    List.find?_eq_none.mpr fun p hp => by simpa using h p hp
  rw [resume?, hnone]

theorem exists_of_resume? {s : Session σ} {call : CallRef} {completion : Completion} {m : Move σ}
    (h : s.resume? call completion = some m) :
    ∃ p, (call, p) ∈ s.pending ∧
      m = ⟨{ s with
              pending := s.pending.filter fun p => p.1 ≠ call
              client := ((p.task.advance completion).run s.client).2 }, p.ticket,
            ((p.task.advance completion).run s.client).1⟩ := by
  cases hfind : s.pending.find? fun p => p.1 = call with
  | none => simp [resume?, hfind] at h
  | some q =>
    have hcall : q.1 = call := by simpa using List.find?_some hfind
    rw [resume?_of_find? hfind] at h
    refine ⟨q.2, ?_, (Option.some.inj h).symm⟩
    rw [← hcall]
    exact List.mem_of_find?_eq_some hfind

/-! ### Starting and routing -/

theorem acceptNext_of_begin? {s : Session σ} {m : Move σ} (h : s.begin? = some m) :
    s.acceptNext = m.apply := by
  rw [acceptNext, h]
  rfl

theorem acceptNext_of_nil {s : Session σ} (h : s.queue = []) : s.acceptNext = s := by
  rw [acceptNext, begin?, h]
  rfl

theorem route_of_resume? {s : Session σ} {call : CallRef} {completion : Completion} {m : Move σ}
    (h : s.countDispatched.resume? call completion = some m) :
    s.route call completion = m.apply := by
  rw [route, h]
  rfl

theorem route_of_not_isAwaited {s : Session σ} {call : CallRef} (completion : Completion)
    (h : s.isAwaited call = false) : s.route call completion = s.countDispatched := by
  rw [route, resume?_of_not_isAwaited (show s.countDispatched.isAwaited call = false from h)]
  rfl

@[simp] theorem queue_acceptNext (s : Session σ) : s.acceptNext.queue = s.queue.tail := by
  cases h : s.begin? with
  | none =>
    have hq : s.queue = [] := by
      match hq : s.queue with
      | [] => rfl
      | (ticket, command) :: queue => simp [begin?_cons hq] at h
    rw [acceptNext_of_nil hq, hq]
    rfl
  | some m =>
    obtain ⟨ticket, command, queue, hq, rfl⟩ := exists_of_begin? h
    rw [acceptNext_of_begin? h, Move.queue_apply, hq]
    rfl

/-- Starting a command leaves the tickets and the state of the queue alone. -/
theorem acceptNext_eq (s : Session σ) :
    s.acceptNext =
      { s.acceptNext with
        scope := s.scope
        nextTicket := s.nextTicket
        dispatched := s.dispatched
        isRunning := s.isRunning } := by
  match hq : s.queue with
  | [] => rw [acceptNext_of_nil hq]
  | (ticket, command) :: queue => rw [acceptNext_of_begin? (begin?_cons hq), Move.apply_eq]

@[simp] theorem isRunning_acceptNext (s : Session σ) : s.acceptNext.isRunning = s.isRunning := by
  rw [acceptNext_eq]

@[simp] theorem nextTicket_acceptNext (s : Session σ) :
    s.acceptNext.nextTicket = s.nextTicket := by
  rw [acceptNext_eq]

/-- So does routing a completion. -/
theorem route_eq (s : Session σ) (call : CallRef) (completion : Completion) :
    s.route call completion =
      { s.route call completion with
        scope := s.scope
        nextTicket := s.nextTicket
        queue := s.queue
        dispatched := s.dispatched + 1
        isRunning := s.isRunning } := by
  cases hm : s.countDispatched.resume? call completion with
  | none =>
    rw [route, hm]
    rfl
  | some m =>
    obtain ⟨p, -, rfl⟩ := exists_of_resume? hm
    rw [route_of_resume? hm, Move.apply_eq]
    rfl

@[simp] theorem isRunning_route (s : Session σ) (call : CallRef) (completion : Completion) :
    (s.route call completion).isRunning = s.isRunning := by
  rw [route_eq]

@[simp] theorem nextTicket_route (s : Session σ) (call : CallRef) (completion : Completion) :
    (s.route call completion).nextTicket = s.nextTicket := by
  rw [route_eq]

theorem queue_acceptMany (n : Nat) (s : Session σ) :
    (acceptMany n s).queue = s.queue.drop n := by
  induction n generalizing s with
  | zero => rfl
  | succ n ih => rw [acceptMany, ih, queue_acceptNext, List.drop_tail]

end Session

end PlatformProxy
