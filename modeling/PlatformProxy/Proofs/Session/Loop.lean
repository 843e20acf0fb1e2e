import PlatformProxy.Proofs.Session.Parts

/-!
# The loop, event by event

`Session.round` and `Session.shutdown` run the parts of the loop in one order, with nothing in
between. Here every part is an event of its own. Between any two of them commands may arrive, and
the loop may be told to stop at any time; it looks at that when a round is over.

## What the events leave open

The completions of one collection are dispatched in any order, and completions that nobody waits
for may come among them. An event that cannot happen changes nothing, so every list of events is a
run, and a statement about all runs is one about all lists.

A command may arrive after the loop has found the queue empty and before it collects. The two do
not touch the same part of the state, so such a run is the one in which the command arrives right
after the collection.

## Main definitions

* `Session.Stage`, `Session.Loop` — where the loop stands, and its state
* `Session.Loop.Event`, `Session.Loop.step`, `Session.Loop.run`
* `Session.Loop.Steps` — what can come of an event, one case for each way it can go
* `Session.Loop.move?` — the step of a query that an event brings about

## Main results

* `Session.Loop.steps` — an event does nothing else
* `Session.Loop.run_roundEvents`, `Session.Loop.run_closeEvents`,
  `Session.Loop.exists_run_shutdown` — a round, the end of the session and a shutdown are runs
* `Session.Stable.run` — what every part of the loop preserves holds after every run
-/

namespace PlatformProxy

namespace Session

open Platform

/-- Where the loop stands. -/
inductive Stage
  /-- Commands are taken off the queue. -/
  | accepting
  /-- Collected completions are waiting to be dispatched. -/
  | dispatching (batch : List (CallRef × Completion))
  /-- The queue is closed, and what is left in it is dropped. -/
  | closing
  | ended

namespace Stage

/-- The completions that wait to be dispatched. -/
def batch : Stage → List (CallRef × Completion)
  | dispatching batch => batch
  | accepting | closing | ended => []

/-- Whether the queue is open. -/
def isOpen : Stage → Bool
  | accepting | dispatching _ => true
  | closing | ended => false

end Stage

/-- The state of the loop between two events. -/
structure Loop (σ : Type) where
  session : Session σ
  stage : Stage
  stopRequested : Bool
  /-- How many rounds are over. -/
  rounds : Nat

variable {σ : Type} [Client σ]

namespace Loop

/-- What can happen next. -/
inductive Event
  /-- A command arrives. -/
  | send (command : Command)
  /-- The loop is told to stop. -/
  | stop
  /-- The first command of the queue is started. -/
  | accept
  /-- The queue is empty, and completions are collected. -/
  | collect
  /-- The completion at a place of the batch is routed. -/
  | dispatch (place : Nat)
  /-- A completion that was not collected is routed to nobody. -/
  | stray (call : CallRef) (completion : Completion)
  /-- The batch is empty: the next round begins, unless the loop is to stop. -/
  | endRound
  /-- The first command of the closed queue is dropped. -/
  | drop
  /-- The closed queue is empty, and the client is torn down. -/
  | tearDown

/-- The loop of a session that has just been started. -/
def ofSession (s : Session σ) : Loop σ := ⟨s, .accepting, false, 0⟩

def accept (l : Loop σ) : Loop σ :=
  match l.stage with
  | .accepting => { l with session := l.session.acceptNext }
  | _ => l

def collect (l : Loop σ) : Loop σ :=
  match l.stage with
  | .accepting =>
    if l.session.queue.isEmpty then
      let (batch, session) := l.session.collect
      { l with session, stage := .dispatching batch }
    else l
  | _ => l

def dispatch (l : Loop σ) (place : Nat) : Loop σ :=
  match l.stage with
  | .dispatching batch =>
    match batch[place]? with
    | some (call, completion) =>
      { l with
        session := l.session.route call completion
        stage := .dispatching (batch.eraseIdx place) }
    | none => l
  | _ => l

def stray (l : Loop σ) (call : CallRef) (completion : Completion) : Loop σ :=
  match l.stage with
  | .dispatching _ =>
    if l.session.isAwaited call then l
    else { l with session := l.session.route call completion }
  | _ => l

def endRound (l : Loop σ) : Loop σ :=
  match l.stage with
  | .dispatching [] =>
    let l := { l with rounds := l.rounds + 1 }
    if l.stopRequested then { l with session := l.session.closeQueue, stage := .closing }
    else { l with stage := .accepting }
  | _ => l

def drop (l : Loop σ) : Loop σ :=
  match l.stage with
  | .closing => { l with session := l.session.dropNext }
  | _ => l

def tearDown (l : Loop σ) : Loop σ :=
  match l.stage with
  | .closing =>
    if l.session.queue.isEmpty then { l with session := l.session.tearDown, stage := .ended } else l
  | _ => l

/-- What an event changes. -/
def step (l : Loop σ) : Event → Loop σ
  | .send command => { l with session := (l.session.send command).2 }
  | .stop => { l with stopRequested := true }
  | .accept => l.accept
  | .collect => l.collect
  | .dispatch place => l.dispatch place
  | .stray call completion => l.stray call completion
  | .endRound => l.endRound
  | .drop => l.drop
  | .tearDown => l.tearDown

/-- What a list of events changes. -/
def run (l : Loop σ) (es : List Event) : Loop σ := es.foldl step l

/-- The commands that arrive, in order. Their tickets are their places. -/
def sent (es : List Event) : List Command :=
  es.filterMap fun
    | .send command => some command
    | _ => none

/-- The step of a query that an event brings about. -/
def move? (l : Loop σ) : Event → Option (Move σ)
  | .accept =>
    match l.stage with
    | .accepting => l.session.begin?
    | _ => none
  | .dispatch place =>
    match l.stage.batch[place]? with
    | some (call, completion) => l.session.countDispatched.resume? call completion
    | none => none
  | _ => none

/-! ### Runs -/

@[simp] theorem run_nil (l : Loop σ) : l.run [] = l := rfl

@[simp] theorem run_cons (l : Loop σ) (e : Event) (es : List Event) :
    l.run (e :: es) = (l.step e).run es := rfl

theorem run_append (l : Loop σ) (es₁ es₂ : List Event) :
    l.run (es₁ ++ es₂) = (l.run es₁).run es₂ :=
  List.foldl_append

@[simp] theorem sent_append (es₁ es₂ : List Event) : sent (es₁ ++ es₂) = sent es₁ ++ sent es₂ :=
  List.filterMap_append

/-- What every event preserves holds after every run. -/
theorem run_induction {P : Loop σ → Prop} (hstep : ∀ l e, P l → P (l.step e)) {l : Loop σ}
    (hl : P l) (es : List Event) : P (l.run es) := by
  induction es generalizing l with
  | nil => exact hl
  | cons e es ih => exact ih (hstep l e hl)

/-! ### Events one by one -/

/-- What can come of an event: nothing, unless it comes from outside, or what it stands for. -/
inductive Steps (l : Loop σ) : Event → Loop σ → Prop
  | idle {e : Event} (hsent : sent [e] = []) : Steps l e l
  | send (command : Command) :
      Steps l (.send command) { l with session := (l.session.send command).2 }
  | stop : Steps l .stop { l with stopRequested := true }
  | accept (hstage : l.stage = .accepting) :
      Steps l .accept { l with session := l.session.acceptNext }
  | collect (hstage : l.stage = .accepting) (hqueue : l.session.queue = []) :
      Steps l .collect
        { l with
          session := l.session.collect.2
          stage := .dispatching l.session.collect.1 }
  | dispatch {batch : List (CallRef × Completion)} (hstage : l.stage = .dispatching batch)
      {place : Nat} {c : CallRef × Completion} (hplace : batch[place]? = some c) :
      Steps l (.dispatch place)
        { l with
          session := l.session.route c.1 c.2
          stage := .dispatching (batch.eraseIdx place) }
  | stray {batch : List (CallRef × Completion)} (hstage : l.stage = .dispatching batch)
      {call : CallRef} (completion : Completion) (hcall : l.session.isAwaited call = false) :
      Steps l (.stray call completion) { l with session := l.session.route call completion }
  | nextRound (hstage : l.stage = .dispatching []) (hstop : l.stopRequested = false) :
      Steps l .endRound { l with rounds := l.rounds + 1, stage := .accepting }
  | close (hstage : l.stage = .dispatching []) (hstop : l.stopRequested = true) :
      Steps l .endRound
        { l with
          rounds := l.rounds + 1
          session := l.session.closeQueue
          stage := .closing }
  | drop (hstage : l.stage = .closing) : Steps l .drop { l with session := l.session.dropNext }
  | tearDown (hstage : l.stage = .closing) (hqueue : l.session.queue = []) :
      Steps l .tearDown { l with session := l.session.tearDown, stage := .ended }

/-- **An event does nothing else.** What is proved about events is proved by these cases. -/
theorem steps (l : Loop σ) (e : Event) : l.Steps e (l.step e) := by
  cases e with
  | send command => exact .send command
  | stop => exact .stop
  | accept =>
    simp only [step, Loop.accept]
    split <;> rename_i hstage
    · exact .accept hstage
    · exact .idle rfl
  | collect =>
    simp only [step, Loop.collect]
    split <;> rename_i hstage
    · split <;> rename_i hqueue
      · exact .collect hstage (List.isEmpty_iff.mp hqueue)
      · exact .idle rfl
    · exact .idle rfl
  | dispatch place =>
    simp only [step, Loop.dispatch]
    split <;> rename_i hstage
    · split <;> rename_i hplace
      · exact .dispatch hstage hplace
      · exact .idle rfl
    · exact .idle rfl
  | stray call completion =>
    simp only [step, Loop.stray]
    split <;> rename_i hstage
    · split <;> rename_i hcall
      · exact .idle rfl
      · exact .stray hstage completion ((Bool.not_eq_true _).mp hcall)
    · exact .idle rfl
  | endRound =>
    simp only [step, endRound]
    split <;> rename_i hstage
    · split <;> rename_i hstop
      · exact .close hstage hstop
      · exact .nextRound hstage ((Bool.not_eq_true _).mp hstop)
    · exact .idle rfl
  | drop =>
    simp only [step, Loop.drop]
    split <;> rename_i hstage
    · exact .drop hstage
    · exact .idle rfl
  | tearDown =>
    simp only [step, Loop.tearDown]
    split <;> rename_i hstage
    · split <;> rename_i hqueue
      · exact .tearDown hstage (List.isEmpty_iff.mp hqueue)
      · exact .idle rfl
    · exact .idle rfl

/-! ### Stopping -/

theorem isOpen_step {l : Loop σ} (hopen : l.stage.isOpen = true)
    (hstop : l.stopRequested = false) {e : Event} (he : e ≠ .stop) :
    (l.step e).stage.isOpen = true ∧ (l.step e).stopRequested = false := by
  have hsteps := l.steps e
  generalize l.step e = l' at hsteps ⊢
  cases hsteps with
  | stop => exact absurd rfl he
  | idle | send | accept | stray | drop => exact ⟨hopen, hstop⟩
  | collect | dispatch | nextRound => exact ⟨rfl, hstop⟩
  | close hstage hrequested => exact absurd (hstop.symm.trans hrequested) Bool.false_ne_true
  | tearDown hstage =>
    rw [hstage] at hopen
    exact absurd hopen Bool.false_ne_true

/-- Unless it is told to stop, the loop keeps the queue open. -/
theorem isOpen_run {l : Loop σ} (hopen : l.stage.isOpen = true) (hstop : l.stopRequested = false)
    {es : List Event} (hes : .stop ∉ es) :
    (l.run es).stage.isOpen = true ∧ (l.run es).stopRequested = false := by
  induction es generalizing l with
  | nil => exact ⟨hopen, hstop⟩
  | cons e es ih =>
    rw [List.mem_cons, not_or] at hes
    obtain ⟨hopen', hstop'⟩ := isOpen_step hopen hstop (Ne.symm hes.1)
    exact ih hopen' hstop' hes.2

/-! ### Moves of queries -/

theorem session_step_of_move? {l : Loop σ} {e : Event} {m : Move σ} (h : l.move? e = some m) :
    (l.step e).session = m.apply := by
  cases e with
  | accept =>
    cases hstage : l.stage <;> simp only [move?, hstage, reduceCtorEq] at h
    simp only [step, accept, hstage, acceptNext_of_begin? h]
  | dispatch place =>
    cases hstage : l.stage <;>
      simp only [move?, hstage, Stage.batch, List.getElem?_nil, reduceCtorEq] at h
    rename_i batch
    cases hplace : batch[place]? with
    | none => simp only [hplace, reduceCtorEq] at h
    | some c =>
      simp only [hplace] at h
      simp only [step, dispatch, hstage, hplace, route_of_resume? h]
  | _ => simp only [move?, reduceCtorEq] at h

/-- What a query's step comes from, in a loop. -/
theorem exists_of_move? {l : Loop σ} {e : Event} {m : Move σ} (h : l.move? e = some m) :
    l.stage.isOpen = true ∧ (l.session.begin? = some m ∨
      ∃ call completion, l.session.countDispatched.resume? call completion = some m) := by
  cases e with
  | accept =>
    cases hstage : l.stage <;> simp only [move?, hstage, reduceCtorEq] at h
    exact ⟨rfl, Or.inl h⟩
  | dispatch place =>
    cases hstage : l.stage <;>
      simp only [move?, hstage, Stage.batch, List.getElem?_nil, reduceCtorEq] at h
    split at h
    · exact ⟨rfl, Or.inr ⟨_, _, h⟩⟩
    · simp at h
  | _ => simp only [move?, reduceCtorEq] at h

/-- **What an event can do to the session** if no query moves. -/
theorem session_step_of_move?_eq_none {l : Loop σ} {e : Event} (h : l.move? e = none) :
    (l.step e).session = l.session ∨ (l.step e).session = l.session.countDispatched ∨
      (∃ command, e = .send command ∧ (l.step e).session = (l.session.send command).2) ∨
      (l.stage = .accepting ∧ (l.step e).session = l.session.collect.2) ∨
      (l.step e).session = l.session.closeQueue ∨
      (l.stage = .closing ∧ (l.step e).session = l.session.dropNext) ∨
      (l.stage = .closing ∧ (l.step e).session = l.session.tearDown) := by
  have hsteps := l.steps e
  generalize l.step e = l' at hsteps ⊢
  cases hsteps with
  | send command => exact Or.inr (Or.inr (Or.inl ⟨command, rfl, rfl⟩))
  | idle | stop | nextRound => exact Or.inl rfl
  | accept hstage =>
    simp only [move?, hstage] at h
    refine Or.inl ?_
    rw [acceptNext, h]
    rfl
  | collect hstage => exact Or.inr (Or.inr (Or.inr (Or.inl ⟨hstage, rfl⟩)))
  | dispatch hstage hplace =>
    simp only [move?, hstage, Stage.batch, hplace] at h
    exact Or.inr (Or.inl (by simp only [route, h, Option.elim_none]))
  | stray hstage completion hcall =>
    exact Or.inr (Or.inl (route_of_not_isAwaited completion hcall))
  | close => exact Or.inr (Or.inr (Or.inr (Or.inr (Or.inl rfl))))
  | drop hstage => exact Or.inr (Or.inr (Or.inr (Or.inr (Or.inr (Or.inl ⟨hstage, rfl⟩)))))
  | tearDown hstage => exact Or.inr (Or.inr (Or.inr (Or.inr (Or.inr (Or.inr ⟨hstage, rfl⟩)))))

end Loop

/-- A property of sessions that every part of the loop preserves. -/
structure Stable (P : Session σ → Prop) : Prop where
  send : ∀ {s} command, P s → P (s.send command).2
  begin : ∀ {s m}, s.begin? = some m → P s → P m.apply
  resume : ∀ {s call completion m}, s.resume? call completion = some m → P s → P m.apply
  countDispatched : ∀ {s}, P s → P s.countDispatched
  collect : ∀ {s}, P s → P s.collect.2
  closeQueue : ∀ {s}, P s → P s.closeQueue
  dropNext : ∀ {s}, P s → P s.dropNext
  tearDown : ∀ {s}, P s → P s.tearDown

theorem Stable.move {P : Session σ → Prop} (h : Stable P) {l : Loop σ} {e : Loop.Event}
    {m : Move σ} (hm : l.move? e = some m) (hl : P l.session) : P m.apply := by
  rcases (Loop.exists_of_move? hm).2 with hm | ⟨call, completion, hm⟩
  · exact h.begin hm hl
  · exact h.resume hm (h.countDispatched hl)

theorem Stable.step {P : Session σ → Prop} (h : Stable P) {l : Loop σ} (e : Loop.Event)
    (hl : P l.session) : P (l.step e).session := by
  cases hm : l.move? e with
  | some m =>
    rw [Loop.session_step_of_move? hm]
    exact h.move hm hl
  | none =>
    rcases Loop.session_step_of_move?_eq_none hm with
      hs | hs | ⟨command, -, hs⟩ | ⟨-, hs⟩ | hs | ⟨-, hs⟩ | ⟨-, hs⟩ <;> rw [hs]
    · exact hl
    · exact h.countDispatched hl
    · exact h.send command hl
    · exact h.collect hl
    · exact h.closeQueue hl
    · exact h.dropNext hl
    · exact h.tearDown hl

/-- **What every part of the loop preserves holds after every run.** -/
theorem Stable.run {P : Session σ → Prop} (h : Stable P) {l : Loop σ} (hl : P l.session)
    (es : List Loop.Event) : P (l.run es).session :=
  Loop.run_induction (P := fun l => P l.session) (fun _ e hl => h.step e hl) hl es

namespace Loop

/-! ### Tickets -/

theorem nextTicket_step (l : Loop σ) (e : Event) :
    (l.step e).session.nextTicket = l.session.nextTicket + (sent [e]).length := by
  have hsteps := l.steps e
  generalize l.step e = l' at hsteps ⊢
  cases hsteps with
  | idle hsent =>
    rw [hsent]
    rfl
  | send command => exact nextTicket_send _ _
  | stop | nextRound | close | collect => rfl
  | accept => exact nextTicket_acceptNext _
  | dispatch | stray => exact nextTicket_route _ _ _
  | drop => exact nextTicket_dropNext _
  | tearDown =>
    dsimp only
    rw [tearDown_eq]
    rfl

/-- The tickets are given out in the order of arrival. -/
theorem nextTicket_run (l : Loop σ) (es : List Event) :
    (l.run es).session.nextTicket = l.session.nextTicket + (sent es).length := by
  induction es generalizing l with
  | nil => rfl
  | cons e es ih =>
    have hsent : sent (e :: es) = sent [e] ++ sent es := sent_append [e] es
    rw [run_cons, ih, nextTicket_step, hsent, List.length_append, Nat.add_assoc]

/-! ### Rounds as runs -/

theorem sent_replicate {e : Event} (he : sent [e] = []) (n : Nat) :
    sent (List.replicate n e) = [] := by
  induction n with
  | zero => rfl
  | succ n ih =>
    rw [List.replicate_succ, ← List.singleton_append, sent_append, he, ih, List.append_nil]

theorem run_accepts {l : Loop σ} (hl : l.stage = .accepting) (n : Nat) :
    l.run (List.replicate n .accept) = { l with session := acceptMany n l.session } := by
  induction n generalizing l with
  | zero => rfl
  | succ n ih =>
    have hstep : l.step .accept = { l with session := l.session.acceptNext } := by
      simp only [step, accept, hl]
    rw [List.replicate_succ, run_cons, hstep]
    exact ih (l := { l with session := l.session.acceptNext }) hl

theorem run_dispatches {l : Loop σ} {batch : List (CallRef × Completion)}
    (hl : l.stage = .dispatching batch) :
    l.run (List.replicate batch.length (.dispatch 0)) =
      { l with
        session := batch.foldl (fun s c => s.route c.1 c.2) l.session
        stage := .dispatching [] } := by
  induction batch generalizing l with
  | nil => simp [← hl]
  | cons c batch ih =>
    have hstep : l.step (.dispatch 0) =
        { l with session := l.session.route c.1 c.2, stage := .dispatching batch } := by
      simp only [step, dispatch, hl, List.getElem?_cons_zero, List.eraseIdx_zero, List.tail_cons]
    rw [List.length_cons, List.replicate_succ, run_cons, hstep, ih rfl]
    rfl

theorem run_drops {l : Loop σ} (hl : l.stage = .closing) (n : Nat) :
    l.run (List.replicate n .drop) = { l with session := dropMany n l.session } := by
  induction n generalizing l with
  | zero => rfl
  | succ n ih =>
    have hstep : l.step .drop = { l with session := l.session.dropNext } := by
      simp only [step, drop, hl]
    rw [List.replicate_succ, run_cons, hstep]
    exact ih (l := { l with session := l.session.dropNext }) hl

/-- The events of a round that nothing interrupts. -/
def roundEvents (s : Session σ) : List Event :=
  List.replicate s.queue.length .accept ++
    .collect :: List.replicate (acceptMany s.queue.length s).collect.1.length (.dispatch 0)

/-- **A round is a run.** It ends with the batch dispatched. -/
theorem run_roundEvents {l : Loop σ} (hl : l.stage = .accepting) :
    l.run (roundEvents l.session) =
      { l with
        session := (acceptMany l.session.queue.length l.session).deliver
        stage := .dispatching [] } := by
  have hempty : (acceptMany l.session.queue.length l.session).queue.isEmpty = true := by
    rw [queue_acceptMany, List.drop_length, List.isEmpty_nil]
  rw [roundEvents, run_append, run_accepts hl, run_cons]
  simp only [step, collect, hl, hempty, if_true]
  rw [run_dispatches rfl]
  rfl

theorem sent_roundEvents (s : Session σ) : sent (roundEvents s) = [] := by
  rw [roundEvents, sent_append, sent_replicate rfl, List.nil_append]
  exact sent_replicate rfl _

/-- The events after the last round. -/
def closeEvents (s : Session σ) : List Event :=
  List.replicate s.queue.length .drop ++ [.tearDown]

omit [Client σ] in
theorem sent_closeEvents (s : Session σ) : sent (closeEvents s) = [] := by
  rw [closeEvents, sent_append, sent_replicate rfl]
  rfl

end Loop

omit [Client σ] in
theorem queue_dropMany (n : Nat) (s : Session σ) : (dropMany n s).queue = s.queue.drop n := by
  induction n generalizing s with
  | zero => rfl
  | succ n ih =>
    rw [dropMany, ih]
    cases hq : s.queue with
    | nil => simp [dropNext, hq]
    | cons c queue => simp [dropNext, hq, resolve]

namespace Loop

/-- **The end of the session is a run.** -/
theorem run_closeEvents {l : Loop σ} (hl : l.stage = .closing) :
    l.run (closeEvents l.session) =
      { l with
        session := (dropMany l.session.queue.length l.session).tearDown
        stage := .ended } := by
  have hempty : (dropMany l.session.queue.length l.session).queue.isEmpty = true := by
    rw [queue_dropMany, List.drop_length, List.isEmpty_nil]
  rw [closeEvents, run_append, run_drops hl, run_cons, run_nil]
  simp only [step, tearDown, hl, hempty, if_true]

/-- A shutdown is a run of a loop that is told to stop. -/
theorem exists_run_shutdown {s : Session σ} (h : s.isRunning = true) :
    ∃ es, sent es = [] ∧
      ((⟨s, .accepting, true, 0⟩ : Loop σ).run es).session = s.shutdown := by
  refine ⟨roundEvents s ++ .endRound :: closeEvents s.round.closeQueue, ?_, ?_⟩
  · rw [sent_append, sent_roundEvents, List.nil_append]
    exact sent_closeEvents _
  · have hround := run_roundEvents (l := ⟨s, .accepting, true, 0⟩) rfl
    have hsame : s.round = (acceptMany s.queue.length s).deliver := if_pos h
    have hclose := run_closeEvents (l := ⟨s.round.closeQueue, .closing, true, 1⟩) rfl
    rw [run_append, hround, run_cons]
    simp only [step, endRound, if_true, ← hsame]
    rw [hclose, shutdown, if_pos h]
    rfl

end Loop

/-- Nothing waits after a shutdown. -/
theorem queue_pending_shutdown {s : Session σ} (h : s.isRunning = true) :
    s.shutdown.queue = [] ∧ s.shutdown.pending = [] := by
  rw [shutdown, if_pos h, close, tearDown_eq]
  refine ⟨?_, rfl⟩
  show (dropMany s.round.queue.length s.round.closeQueue).queue = []
  rw [queue_dropMany]
  exact List.drop_length

end Session

end PlatformProxy
