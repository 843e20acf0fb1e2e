import Mathlib.Data.List.Forall2
import PlatformProxy.Platform.Simulator
import PlatformProxy.Proofs.Rpc.Classification

/-!
# The forms of parameters

Parameters may be given by position or by name, in any order, with nulls or without. A method reads
slots, and for reading a null and an empty slot are the same, so two calls cannot be told apart if
they give the same values but for nulls. That is more than agreement on what is accepted: when
parameters are wrong, both calls fail with the same error, which names the same parameter.

An empty text to search for is another matter. It is a value like others, and the command it leads
to is a different one. The two commands start the same search, so sessions that get them part at the
queue and meet again when the queue has been emptied.

## Main definitions

* `Rpc.given` — what is given for a parameter, if a null is nothing
* `Rpc.Gives` — the forms of parameters that give some values
* `Rpc.dispatch` — what becomes of a call, and of the session
* `Session.Alike` — sessions that wait for commands which start the same

## Main results

* `Rpc.call_congr` — the same values make the same call
* `Session.Alike.round` — sessions that are alike are the same after a round
* `Rpc.forms_of_parameters_agree` — the forms of parameters mean the same
-/

namespace PlatformProxy

namespace Rpc

/-- What is given for a parameter. A null is nothing. -/
def given (names : List String) (params : Option Json) (index : Nat) : Option Json :=
  (argument names params index).filter fun v => v ≠ .null

/-- The forms of parameters that give some values to the first names. Trailing nulls may be written
out, and so may other members. -/
inductive Gives (names : List String) (items : List Json) : Option Json → Prop
  | absent (h : items = []) : Gives names items none
  | null (h : items = []) : Gives names items (some .null)
  | byPosition (nulls : Nat) (h : items.length + nulls ≤ names.length) :
      Gives names items (some (.array (items ++ List.replicate nulls .null)))
  | byName (nulls : Nat) {others members : List (String × Json)}
      (h : items.length + nulls ≤ names.length) (hothers : ∀ o ∈ others, o.1 ∉ names)
      (hmembers : members.Perm (names.zip (items ++ List.replicate nulls .null) ++ others)) :
      Gives names items (some (.object members))

/-! ### Reading the same -/

namespace Params

/-- Slots with the same contents, if a null is nothing. -/
structure Same (p p' : Params) : Prop where
  names : p.names = p'.names
  slots : ∀ i, (p.slot i).filter (· ≠ .null) = (p'.slot i).filter (· ≠ .null)

/-- What is read, and what is left, does not depend on nulls. -/
def Respects {α : Type} (r : Reading α) : Prop :=
  ∀ p p', Same p p' →
    (r.run.run p).1 = (r.run.run p').1 ∧ Same (r.run.run p).2 (r.run.run p').2

theorem slot_without_self (p : Params) (i : Nat) : (p.without i).slot i = none := by
  rw [slot, without, List.getElem?_set_self']
  cases p.values[i]? <;> rfl

theorem Same.without {p p' : Params} (h : Same p p') (index : Nat) :
    Same (p.without index) (p'.without index) := by
  refine ⟨h.names, fun i => ?_⟩
  by_cases hi : index = i
  · rw [hi, slot_without_self, slot_without_self]
  · rw [slot_without hi, slot_without hi]
    exact h.slots i

theorem Same.name_eq {p p' : Params} (h : Same p p') (index : Nat) :
    p.name index = p'.name index := by
  rw [name, name, h.names]

section Reading

variable {α β : Type}

theorem respects_pure (x : α) : Respects (pure x : Reading α) := fun _ _ h => ⟨rfl, h⟩

theorem respects_bind {r : Reading α} {f : α → Reading β} (hr : Respects r)
    (hf : ∀ x, Respects (f x)) : Respects (r >>= f) := by
  intro p p' h
  obtain ⟨hresult, hrest⟩ := hr p p' h
  rw [run_bind, run_bind]
  generalize r.run.run p = run at hresult hrest ⊢
  generalize r.run.run p' = run' at hresult hrest ⊢
  obtain ⟨result, q⟩ := run
  obtain ⟨result', q'⟩ := run'
  obtain rfl : result = result' := hresult
  cases result with
  | ok x => exact hf x q q' hrest
  | error e => exact ⟨rfl, hrest⟩

variable [Json.Shaped α]

/-- What is read of a slot, if a null is nothing. -/
def ofSlot (name : String) : Option Json → Except Error (Option α)
  | none => .ok none
  | some v =>
    match Json.fromJson? v with
    | .ok x => .ok (some x)
    | .error m => .error (.invalidParams ("parameter '" ++ name ++ "': " ++ m.message))

theorem run_optional_eq (p : Params) (index : Nat) :
    (optional index : Reading (Option α)).run.run p =
      (ofSlot (p.name index) ((p.slot index).filter (· ≠ .null)), p.without index) := by
  rw [run_optional]
  match p.slot index with
  | none | some .null => rfl
  | some (.bool _) | some (.number _) | some (.string _) | some (.array _) | some (.object _) =>
    rfl

theorem respects_optional (index : Nat) : Respects (optional index : Reading (Option α)) := by
  intro p p' h
  rw [run_optional_eq, run_optional_eq, h.slots, h.name_eq]
  exact ⟨rfl, h.without index⟩

theorem respects_required (index : Nat) : Respects (required index : Reading α) := by
  intro p p' h
  rw [run_required, run_required, (respects_optional index p p' h).1, h.name_eq]
  exact ⟨rfl, h.without index⟩

end Reading

theorem names_of_parse {params : Option Json} {names : List String} {p : Params}
    (h : parse params names = .ok p) : p.names = names := by
  match params with
  | none | some .null | some (.object _) => rw [← Except.ok.inj h]
  | some (.bool _) | some (.number _) | some (.string _) => cases h
  | some (.array items) =>
    rw [parse] at h
    split at h
    · cases h
    · rw [← Except.ok.inj h]

/-- The slots hold what is given. -/
theorem exists_parse {names : List String} (hnames : names.Nodup) {params : Option Json}
    (h : Fits names.length params) :
    ∃ p, parse params names = .ok p ∧ p.names = names ∧
      ∀ i, (p.slot i).filter (· ≠ .null) = given names params i := by
  obtain ⟨-, p, hparse, hslots⟩ | ⟨hnot, -⟩ := parse_cases hnames params
  · exact ⟨p, hparse, names_of_parse hparse, fun i => by rw [hslots, given]⟩
  · exact absurd h hnot

end Params

open Params in
theorem Method.respects_command (m : Method) : Respects m.command := by
  cases m with
  | leaderboardRange =>
    exact respects_bind (respects_required 0) fun _ => respects_bind (respects_required 1) fun _ =>
      respects_bind (respects_required 2) fun _ => respects_pure _
  | leaderboardPlayers =>
    exact respects_bind (respects_required 0) fun _ => respects_bind (respects_required 1) fun _ =>
      respects_pure _
  | workshopLevels =>
    exact respects_bind (respects_required 0) fun _ => respects_bind (respects_optional 1) fun _ =>
      respects_pure _
  | personaName => exact respects_bind (respects_required 0) fun _ => respects_pure _

/-- **The same values make the same call**, be it a command or an error. -/
theorem call_congr (m : Method) {params params' : Option Json}
    (h : Fits m.parameters.length params) (h' : Fits m.parameters.length params')
    (hgiven : ∀ i, given m.parameters params i = given m.parameters params' i) :
    call m.name params = call m.name params' := by
  obtain ⟨p, hp, hnames, hslots⟩ := Params.exists_parse m.nodup_parameters h
  obtain ⟨p', hp', hnames', hslots'⟩ := Params.exists_parse m.nodup_parameters h'
  rw [call, call, Method.ofName?_name]
  dsimp only
  rw [hp, hp']
  refine (m.respects_command p p' ⟨hnames.trans hnames'.symm, fun i => ?_⟩).1
  rw [hslots, hslots', hgiven]

/-! ### Giving the same -/

theorem lookup_eq_some {name : String} {members : List (String × Json)} {v : Json}
    (hmem : (name, v) ∈ members) (honly : ∀ m ∈ members, m.1 = name → m = (name, v)) :
    Json.lookup name members = some v := by
  obtain ⟨m, hm⟩ : ∃ m, members.find? (fun m => m.1 = name) = some m :=
    Option.isSome_iff_exists.mp (List.find?_isSome.mpr ⟨_, hmem, decide_eq_true rfl⟩)
  have hname : m.1 = name := by simpa using List.find?_some hm
  rw [Json.lookup, hm, honly m (List.mem_of_find?_eq_some hm) hname]
  rfl

theorem lookup_eq_none {name : String} {members : List (String × Json)}
    (h : ∀ m ∈ members, m.1 ≠ name) : Json.lookup name members = none := by
  rw [Json.lookup, Option.map_eq_none_iff, List.find?_eq_none]
  exact fun m hm heq => h m hm (of_decide_eq_true heq)

/-- Members in any order give the values they were made of to the first names. -/
theorem argument_of_perm {names : List String} (hnames : names.Nodup) {values : List Json}
    {others members : List (String × Json)} (hlength : values.length ≤ names.length)
    (hothers : ∀ o ∈ others, o.1 ∉ names) (hmembers : members.Perm (names.zip values ++ others))
    (i : Nat) : argument names (some (.object members)) i = values[i]? := by
  -- A member whose name stands at a place has the value of this place.
  have hplace : ∀ m ∈ members, names[i]? = some m.1 → values[i]? = some m.2 := by
    intro m hm hname
    rcases List.mem_append.mp (hmembers.mem_iff.mp hm) with hzip | hother
    · obtain ⟨j, hj⟩ := List.mem_iff_getElem?.mp hzip
      obtain ⟨hname', hvalue⟩ := List.getElem?_zip_eq_some.mp hj
      obtain ⟨hlt, -⟩ := List.getElem?_eq_some_iff.mp hname
      rwa [(List.getElem?_inj hlt hnames).mp (hname.trans hname'.symm)]
    · exact absurd (List.mem_of_getElem? hname) (hothers m hother)
  cases hname : names[i]? with
  | none =>
    have hle := Nat.le_trans hlength (List.getElem?_eq_none_iff.mp hname)
    rw [argument, hname, List.getElem?_eq_none hle]
    rfl
  | some name =>
    rw [argument, hname]
    show Json.lookup name members = values[i]?
    cases hvalue : values[i]? with
    | none =>
      refine lookup_eq_none fun m hm heq => ?_
      rw [hplace m hm (heq ▸ hname)] at hvalue
      cases hvalue
    | some v =>
      have hzip : (name, v) ∈ names.zip values :=
        List.mem_of_getElem? (List.getElem?_zip_eq_some.mpr ⟨hname, hvalue⟩)
      refine lookup_eq_some (hmembers.mem_iff.mpr (List.mem_append_left others hzip)) ?_
      intro m hm heq
      have hsame := hplace m hm (heq ▸ hname)
      rw [hvalue] at hsame
      exact Prod.ext heq (Option.some.inj hsame).symm

theorem filter_nulls (items : List Json) (nulls i : Nat) :
    ((items ++ List.replicate nulls Json.null)[i]?).filter (· ≠ .null) =
      (items[i]?).filter (· ≠ .null) := by
  rcases Nat.lt_or_ge i items.length with hlt | hge
  · rw [List.getElem?_append_left hlt]
  · rw [List.getElem?_append_right hge, List.getElem?_eq_none hge, List.getElem?_replicate]
    split <;> rfl

theorem Gives.fits {names : List String} {items : List Json} {params : Option Json}
    (h : Gives names items params) : Fits names.length params := by
  cases h with
  | absent => exact .absent
  | null => exact .null
  | byPosition nulls hlength =>
    refine .byPosition _ ?_
    rwa [List.length_append, List.length_replicate]
  | byName nulls => exact .byName _

/-- Parameters of all forms give the values that they are made of. -/
theorem Gives.given_eq {names : List String} (hnames : names.Nodup) {items : List Json}
    {params : Option Json} (h : Gives names items params) (i : Nat) :
    given names params i = (items[i]?).filter (· ≠ .null) := by
  cases h with
  | absent h | null h =>
    subst h
    rfl
  | byPosition nulls hlength => exact filter_nulls items nulls i
  | byName nulls hlength hothers hmembers =>
    have hvalues : (items ++ List.replicate nulls Json.null).length ≤ names.length := by
      rwa [List.length_append, List.length_replicate]
    rw [given, argument_of_perm hnames hvalues hothers hmembers]
    exact filter_nulls items nulls i

end Rpc

/-! ### Sessions that get different commands -/

namespace Session

open Platform

variable {σ : Type}

/-- The queue has no part in a move. -/
theorem Move.apply_withQueue (s : Session σ) (queue : List (Ticket × Command)) (ticket : Ticket)
    (progress : Progress) :
    (Move.mk { s with queue } ticket progress).apply =
      { (Move.mk s ticket progress).apply with queue } := by
  cases progress with
  | await call task => simp only [apply, await_eq]
  | done outcome => rfl

variable [Client σ]

variable (σ) in
/-- Two commands lead to the same calls and to the same query. -/
def StartsAlike (c c' : Command) : Prop :=
  ∀ scope, (c.start scope : StateM σ Progress) = c'.start scope

/-- Sessions that differ in commands of their queues, which start the same. -/
structure Alike (s s' : Session σ) : Prop where
  eq_withQueue : s' = { s with queue := s'.queue }
  queues : List.Forall₂ (fun q q' => q.1 = q'.1 ∧ StartsAlike σ q.2 q'.2) s.queue s'.queue

namespace Alike

variable {s s' : Session σ}

theorem acceptNext (h : Alike s s') : Alike s.acceptNext s'.acceptNext := by
  obtain ⟨heq, hqueues⟩ := h
  generalize s'.queue = queue' at heq hqueues
  subst heq
  obtain ⟨client, scope, nextTicket, queue, pending, outcomes, dispatched, isRunning⟩ := s
  cases hqueues with
  | nil => exact ⟨rfl, .nil⟩
  | @cons q q' queue queue' hfirst hrest =>
    obtain ⟨ticket, command⟩ := q
    obtain ⟨ticket', command'⟩ := q'
    obtain ⟨rfl, hstarts⟩ := hfirst
    rw [acceptNext_of_begin? (begin?_cons rfl), acceptNext_of_begin? (begin?_cons rfl)]
    dsimp only
    rw [← hstarts scope]
    refine ⟨?_, ?_⟩
    · rw [Move.queue_apply]
      exact Move.apply_withQueue ⟨_, scope, nextTicket, queue, pending, outcomes, dispatched,
        isRunning⟩ queue' ticket _
    · rw [Move.queue_apply, Move.queue_apply]
      exact hrest

theorem acceptMany (h : Alike s s') (n : Nat) :
    Alike (Session.acceptMany n s) (Session.acceptMany n s') := by
  induction n generalizing s s' with
  | zero => exact h
  | succ n ih => exact ih h.acceptNext

theorem eq_of_nil (h : Alike s s') (hqueue : s.queue = []) : s = s' := by
  obtain ⟨heq, hqueues⟩ := h
  rw [hqueue] at hqueues
  cases hqueues' : s'.queue with
  | nil => rw [heq, hqueues', ← hqueue]
  | cons q queue =>
    rw [hqueues'] at hqueues
    cases hqueues

/-- **Sessions that are alike are the same after a round.** -/
theorem round (h : Alike s s') (hrunning : s.isRunning = true) : s.round = s'.round := by
  have hrunning' : s'.isRunning = true := by
    rw [h.eq_withQueue]
    exact hrunning
  rw [Session.round, Session.round, if_pos hrunning, if_pos hrunning', ← h.queues.length_eq,
    (h.acceptMany s.queue.length).eq_of_nil]
  rw [queue_acceptMany, List.drop_length]

end Alike

/-- A session that runs is alike whichever of the commands it gets. -/
theorem alike_send {s : Session σ} {c c' : Command} (h : StartsAlike σ c c')
    (hrunning : s.isRunning = true) : Alike (s.send c).2 (s.send c').2 := by
  rw [send_of_isRunning hrunning, send_of_isRunning hrunning]
  refine ⟨rfl, List.rel_append (List.forall₂_same.mpr fun q _ => ⟨rfl, fun _ => rfl⟩) ?_⟩
  exact .cons ⟨rfl, h⟩ .nil

/-- It makes no difference to the session then which of the commands it gets. -/
theorem settle_send {s : Session σ} {c c' : Command} (h : StartsAlike σ c c') (rounds : Nat) :
    (s.send c).2.settle (rounds + 1) = (s.send c').2.settle (rounds + 1) := by
  cases hrunning : s.isRunning with
  | true =>
    have hbusy : ∀ command, (s.send command).2.isBusy = true := by
      intro command
      rw [send_of_isRunning hrunning, isBusy]
      simp
    have hround := (alike_send h hrunning).round ((isRunning_send s c).trans hrunning)
    rw [settle, settle, if_pos (hbusy c), if_pos (hbusy c'), hround]
  | false => rw [send_of_not_isRunning hrunning, send_of_not_isRunning hrunning]

/-- An empty text to search for is none. -/
theorem startsAlike_of_noText (maxResults : UInt32) {text text' : Option String}
    (h : text = none ∨ text = some "") (h' : text' = none ∨ text' = some "") :
    StartsAlike σ (.workshop ⟨maxResults, text⟩) (.workshop ⟨maxResults, text'⟩) := by
  intro scope
  rcases h with rfl | rfl <;> rcases h' with rfl | rfl <;> rfl

end Session

namespace Rpc

/-! ### Calls -/

/-- What becomes of a call within some rounds of a session, and of the session. A call that has no
command is over at once. -/
def dispatch {σ : Type} [Platform.Client σ] (s : Session σ) (rounds : Nat) (method : String)
    (params : Option Json) : Option (Except Error Json) × Session σ :=
  match call method params with
  | .error e => (some (.error e), s)
  | .ok command =>
    let (ticket, s) := s.send command
    let s := s.settle rounds
    ((s.outcome? ticket).map resultOf, s)

section Dispatch

variable {σ : Type} [Platform.Client σ] {s : Session σ} {rounds : Nat} {method : String}
  {params params' : Option Json}

theorem dispatch_of_ok {c : Session.Command} (h : call method params = .ok c) :
    dispatch s rounds method params =
      ((((s.send c).2.settle rounds).outcome? s.nextTicket).map resultOf,
        (s.send c).2.settle rounds) := by
  rw [dispatch, h]
  rfl

theorem dispatch_congr (h : call method params = call method params') :
    dispatch s rounds method params = dispatch s rounds method params' := by
  rw [dispatch, dispatch, h]

theorem dispatch_of_startsAlike {c c' : Session.Command} (h : call method params = .ok c)
    (h' : call method params' = .ok c') (hstarts : Session.StartsAlike σ c c') :
    dispatch s (rounds + 1) method params = dispatch s (rounds + 1) method params' := by
  rw [dispatch_of_ok h, dispatch_of_ok h', Session.settle_send hstarts]

end Dispatch

/-! ### Searches without a text -/

/-- What is read of a slot that has to be filled, if a null is nothing. -/
def Params.ofFilled {α : Type} [Json.Shaped α] (name : String) (value : Option Json) :
    Except Error α :=
  match (ofSlot name value : Except Error (Option α)) with
  | .ok (some x) => .ok x
  | .ok none => .error (.invalidParams ("missing parameter '" ++ name ++ "'"))
  | .error e => .error e

/-- The command of a search, if its text is none that is wrong. -/
theorem call_workshopLevels {params : Option Json} {text : Option String}
    (h : Fits Method.workshopLevels.parameters.length params)
    (htext : Params.ofSlot "searchText" (given Method.workshopLevels.parameters params 1) =
      .ok text) :
    call Method.workshopLevels.name params =
      (Params.ofFilled "maxResults" (given Method.workshopLevels.parameters params 0)).map
        fun maxResults => .workshop ⟨maxResults, text⟩ := by
  obtain ⟨p, hparse, hnames, hslots⟩ := Params.exists_parse Method.workshopLevels.nodup_parameters h
  have hname : p.name 0 = "maxResults" ∧ (p.without 0).name 1 = "searchText" := by
    rw [Params.name, Params.name, Params.without, hnames]
    exact ⟨rfl, rfl⟩
  rw [call, Method.ofName?_name]
  dsimp only
  rw [hparse]
  dsimp only [Method.command]
  rw [Params.run_bind, Params.run_required, Params.run_optional_eq, hslots, hname.1,
    Params.ofFilled]
  cases (Params.ofSlot "maxResults" (given Method.workshopLevels.parameters params 0) :
      Except Error (Option UInt32)) with
  | error e => rfl
  | ok value =>
    cases value with
    | none => rfl
    | some maxResults =>
      dsimp only
      rw [Params.run_bind, Params.run_optional_eq, hname.2, Params.slot_without (by decide), hslots,
        htext]
      rfl

/-- No text, or an empty one. -/
def NoText (value : Option Json) : Prop := value = none ∨ value = some (.string "")

theorem exists_call_of_noText {params : Option Json}
    (h : Fits Method.workshopLevels.parameters.length params)
    (htext : NoText (given Method.workshopLevels.parameters params 1)) :
    ∃ text, (text = none ∨ text = some "") ∧ call Method.workshopLevels.name params =
      (Params.ofFilled "maxResults" (given Method.workshopLevels.parameters params 0)).map
        fun maxResults => .workshop ⟨maxResults, text⟩ := by
  rcases htext with hnone | hempty
  · exact ⟨none, .inl rfl, call_workshopLevels h (by rw [hnone]; rfl)⟩
  · exact ⟨some "", .inr rfl, call_workshopLevels h (by rw [hempty]; rfl)⟩

/-- **The forms of parameters mean the same.** Whatever the state of the session is, calls that give
the same values to the parameters of a method, by position or by name and with or without trailing
nulls, have the same command or the same error, and the same becomes of them and of the session.
Searches that give no text, and searches that give an empty one, have the same error or commands
that start with the same calls of the platform, and the same becomes of them once there has been a
round. -/
theorem forms_of_parameters_agree {σ : Type} [Platform.Client σ] (s : Session σ) :
    (∀ (m : Method) items params params', Gives m.parameters items params →
      Gives m.parameters items params' →
      call m.name params = call m.name params' ∧
        ∀ rounds, dispatch s rounds m.name params = dispatch s rounds m.name params') ∧
    ∀ params params', let m := Method.workshopLevels
      Fits m.parameters.length params → Fits m.parameters.length params' →
      given m.parameters params 0 = given m.parameters params' 0 →
      NoText (given m.parameters params 1) → NoText (given m.parameters params' 1) →
      ((∃ e, call m.name params = .error e ∧ call m.name params' = .error e) ∨
        ∃ c c', call m.name params = .ok c ∧ call m.name params' = .ok c' ∧
          Session.StartsAlike σ c c') ∧
      ∀ rounds, dispatch s (rounds + 1) m.name params = dispatch s (rounds + 1) m.name params' := by
  constructor
  · intro m items params params' h h'
    have hcall := call_congr m h.fits h'.fits fun i => by
      rw [h.given_eq m.nodup_parameters, h'.given_eq m.nodup_parameters]
    exact ⟨hcall, fun rounds => dispatch_congr hcall⟩
  · intro params params' m h h' hmax htext htext'
    obtain ⟨text, hnone, hcall⟩ := exists_call_of_noText h htext
    obtain ⟨text', hnone', hcall'⟩ := exists_call_of_noText h' htext'
    rw [← hmax] at hcall'
    cases hread : (Params.ofFilled "maxResults" (given m.parameters params 0) :
        Except Error UInt32) with
    | error e =>
      rw [hread] at hcall hcall'
      exact ⟨.inl ⟨e, hcall, hcall'⟩, fun rounds => dispatch_congr (hcall.trans hcall'.symm)⟩
    | ok maxResults =>
      rw [hread] at hcall hcall'
      have hstarts : Session.StartsAlike σ _ _ :=
        Session.startsAlike_of_noText maxResults hnone hnone'
      exact ⟨.inr ⟨_, _, hcall, hcall', hstarts⟩,
        fun rounds => dispatch_of_startsAlike hcall hcall' hstarts⟩

/-- A range by position, whose end is missing, and by name, with a null and another member; and
searches without a text and with an empty one. -/
theorem range_and_levels_by_name :
    let s : Session Platform.Simulator := ⟨.new .empty, ⟨1, []⟩, 0, [], [], [], 0, true⟩
    let items : List Json := [.string "Board", .natural 1]
    let byName : Option Json := some (.object [("end", .null), ("leaderboardName", .string "Board"),
      ("note", .bool true), ("start", .natural 1)])
    let levels : Option Json := some (.array [.natural 5])
    let levels' : Option Json :=
      some (.object [("searchText", .string ""), ("maxResults", .natural 5)])
    (Gives Method.leaderboardRange.parameters items (some (.array items)) ∧
      Gives Method.leaderboardRange.parameters items byName ∧
      call "GetLeaderboardRange" (some (.array items)) = call "GetLeaderboardRange" byName) ∧
    Fits 2 levels ∧ Fits 2 levels' ∧
      given ["maxResults", "searchText"] levels 0 = given ["maxResults", "searchText"] levels' 0 ∧
      NoText (given ["maxResults", "searchText"] levels 1) ∧
      NoText (given ["maxResults", "searchText"] levels' 1) ∧
      ∀ rounds, dispatch s (rounds + 1) "GetWorkshopLevels" levels =
        dispatch s (rounds + 1) "GetWorkshopLevels" levels' := by
  intro s items byName levels levels'
  have hitems : Gives Method.leaderboardRange.parameters items (some (.array items)) :=
    .byPosition 0 (by decide)
  have hmembers : List.Perm
      [("end", .null), ("leaderboardName", .string "Board"), ("note", .bool true),
        ("start", .natural 1)]
      (Method.leaderboardRange.parameters.zip (items ++ List.replicate 1 .null) ++
        [("note", .bool true)]) := by decide +kernel
  have hbyName : Gives Method.leaderboardRange.parameters items byName :=
    .byName 1 (by decide) (by decide) hmembers
  have hfits : Fits 2 levels := .byPosition _ (by decide)
  have hfits' : Fits 2 levels' := .byName _
  have hmax : given ["maxResults", "searchText"] levels 0 =
      given ["maxResults", "searchText"] levels' 0 := by decide +kernel
  have htext : NoText (given ["maxResults", "searchText"] levels 1) := .inl (by decide +kernel)
  have htext' : NoText (given ["maxResults", "searchText"] levels' 1) := .inr (by decide +kernel)
  exact ⟨⟨hitems, hbyName, ((forms_of_parameters_agree s).1 _ _ _ _ hitems hbyName).1⟩, hfits,
    hfits', hmax, htext, htext',
    ((forms_of_parameters_agree s).2 levels levels' hfits hfits' hmax htext htext').2⟩

end Rpc

end PlatformProxy
