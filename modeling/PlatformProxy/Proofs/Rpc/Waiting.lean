import PlatformProxy.Proofs.Frame.Hearing
import PlatformProxy.Rpc.Line

/-!
# Which response ends a call

A call that is given up leaves its response behind. It may arrive at any time and is taken off the
connection by a later call, together with whatever else the peer sends. That no call mistakes it for
its own rests on two things. The numbers of calls do not repeat, and a call passes over every
response with another number, however many there are and wherever the stream is cut.

What a call hears is pinned to the stream: everything heard by all calls on a line, one call after
the other, was due. A call is ended by the first thing it hears that is not the response to another
call.

A fault ends one call and not the connection. The next call hears the end, though more may come, and
the call after it listens to the stream again. A call may therefore be told that the connection is
closed where it is not. That happens right behind a fault, and nowhere before the first one.

## Main definitions

* `Rpc.Ends` — what ends a call, and with which result
* `Rpc.Caller.Listens` — what can come of listening for a response
* `Rpc.Wait.IsFair` — a call has ended as it should
* `Rpc.Line.InOrder` — the calls of a line and its stream

## Main results

* `Rpc.Caller.listens` — nothing else can
* `Rpc.Line.InOrder.step` — every event keeps the calls and the stream right
* `Rpc.Line.calls_end_with_their_own_responses` — what this says of a whole history

## Implementation notes

A read finds a chunk, nothing yet, or that the peer is done. Reads that fail are left out.
-/

namespace PlatformProxy

namespace Rpc

open PlatformProxy.Frame (Incoming Receiver Signal)

/-! ### What ends a call -/

/-- A response, but not to the call of this number. -/
def IsForeign (number : UInt64) (body : Bytes) : Prop :=
  ∃ r : Response, Json.fromText body = .ok r ∧ r.id ≠ .natural number

/-- What ends the call of a number, and with which result. -/
inductive Ends {α : Type} [Json.Shaped α] (number : UInt64) :
    Signal → Except CallError α → Prop
  | response {body : Bytes} {r : Response} (hread : Json.fromText body = .ok r)
      (hid : r.id = .natural number) : Ends number (.message body) (r.resultAs.mapError .rpc)
  | malformed {body : Bytes} {f : Json.Fault}
      (hread : (Json.fromText body : Except Json.Fault Response) = .error f) :
      Ends number (.message body) (.error (.malformed (f.message body)))
  | fault (e : Frame.Error) : Ends number (.fault e) (.error (.framing e))
  | closed : Ends number .ended (.error .closed)

/-- Only responses to other calls. -/
def AllForeign (number : UInt64) (heard : List Signal) : Prop :=
  ∀ s ∈ heard, ∃ body, s = .message body ∧ IsForeign number body

section Ends

variable {α : Type} [Json.Shaped α] {number : UInt64} {x y : Except CallError α}

theorem Ends.not_foreign {body : Bytes} (h : Ends number (.message body) x) :
    ¬ IsForeign number body := by
  rintro ⟨r, hr, hid⟩
  cases h with
  | response hread hid' =>
    rw [hr] at hread
    obtain rfl := Except.ok.inj hread
    exact hid hid'
  | malformed hread =>
    rw [hr] at hread
    cases hread

theorem Ends.unique {s : Signal} (hx : Ends number s x) (hy : Ends number s y) : x = y := by
  cases hx with
  | response hread hid =>
    cases hy with
    | response hread' _ =>
      rw [hread] at hread'
      obtain rfl := Except.ok.inj hread'
      rfl
    | malformed hread' =>
      rw [hread] at hread'
      cases hread'
  | malformed hread =>
    cases hy with
    | response hread' _ =>
      rw [hread] at hread'
      cases hread'
    | malformed hread' =>
      rw [hread] at hread'
      obtain rfl := Except.error.inj hread'
      rfl
  | fault e =>
    cases hy
    rfl
  | closed =>
    cases hy
    rfl

theorem allForeign_nil (number : UInt64) : AllForeign number [] := nofun

theorem allForeign_append {heard heard' : List Signal} (h : AllForeign number heard)
    (h' : AllForeign number heard') : AllForeign number (heard ++ heard') := by
  intro s hs
  rcases List.mem_append.mp hs with hs | hs
  · exact h s hs
  · exact h' s hs

theorem allForeign_cons {body : Bytes} {heard : List Signal} (hbody : IsForeign number body)
    (h : AllForeign number heard) : AllForeign number (.message body :: heard) :=
  List.forall_mem_cons.mpr ⟨⟨body, rfl, hbody⟩, h⟩

theorem Ends.not_allForeign {s : Signal} (h : Ends number s x) (skipped : List Signal) :
    ¬ AllForeign number (skipped ++ [s]) := by
  intro hall
  obtain ⟨body, rfl, hbody⟩ := hall s (List.mem_append_right _ List.mem_cons_self)
  exact h.not_foreign hbody

end Ends

namespace Caller

variable {α : Type} [Json.Shaped α]

theorem match?_eq_none_iff {c : Caller} {body : Bytes} :
    (c.match? body : Option (Except CallError α)) = none ↔ IsForeign c.latest body := by
  rw [match?]
  cases hread : (Json.fromText body : Except Json.Fault Response) with
  | error f =>
    refine ⟨nofun, ?_⟩
    rintro ⟨r, hr, -⟩
    rw [hread] at hr
    cases hr
  | ok r =>
    dsimp only
    split <;> rename_i hid
    · refine ⟨nofun, ?_⟩
      rintro ⟨r', hr', hid'⟩
      rw [hread] at hr'
      obtain rfl := Except.ok.inj hr'
      exact absurd hid hid'
    · exact ⟨fun _ => ⟨r, hread, hid⟩, fun _ => rfl⟩

theorem ends_of_match? {c : Caller} {body : Bytes} {x : Except CallError α}
    (h : c.match? body = some x) : Ends c.latest (.message body) x := by
  rw [match?] at h
  split at h <;> rename_i hread
  · obtain rfl := Option.some.inj h
    exact .malformed hread
  · split at h <;> rename_i hid
    · obtain rfl := Option.some.inj h
      exact .response hread hid
    · exact absurd h nofun

/-! ### Listening for a response -/

/-- What can come of listening for a response. -/
inductive Listens : Caller → List Signal → Option (Except CallError α) → Caller → Prop
  | waits {c : Caller} {incoming : Incoming} (hnext : c.incoming.next = (none, incoming)) :
      Listens c [] none { c with incoming }
  | ends {c : Caller} {s : Signal} {incoming : Incoming} {x : Except CallError α}
      (hnext : c.incoming.next = (some s, incoming)) (hends : Ends c.latest s x) :
      Listens c [s] (some x) { c with incoming }
  | skips {c c' : Caller} {body : Bytes} {incoming : Incoming} {signals : List Signal}
      {result : Option (Except CallError α)}
      (hnext : c.incoming.next = (some (.message body), incoming))
      (hforeign : IsForeign c.latest body)
      (hrest : Listens { c with incoming } signals result c') :
      Listens c (.message body :: signals) result c'

section Listens

variable {c c' : Caller} {signals : List Signal} {result : Option (Except CallError α)}

theorem Listens.latest_eq (h : c.Listens signals result c') : c'.latest = c.latest := by
  induction h with
  | waits => rfl
  | ends => rfl
  | skips _ _ _ ih => exact ih

/-- A call that waits on has heard responses to other calls only. -/
theorem Listens.of_none (h : c.Listens signals (none : Option (Except CallError α)) c') :
    AllForeign c.latest signals := by
  generalize hnone : (none : Option (Except CallError α)) = result at h
  induction h with
  | waits => exact allForeign_nil _
  | ends => cases hnone
  | skips _ hforeign _ ih => exact allForeign_cons hforeign (ih hnone)

/-- A call that ends has heard what ends it, and responses to other calls before. -/
theorem Listens.of_some {x : Except CallError α} (h : c.Listens signals (some x) c') :
    ∃ skipped last, signals = skipped ++ [last] ∧ AllForeign c.latest skipped ∧
      Ends c.latest last x := by
  generalize hsome : some x = result at h
  induction h with
  | waits => cases hsome
  | ends _ hends =>
    obtain rfl := Option.some.inj hsome
    exact ⟨[], _, rfl, allForeign_nil _, hends⟩
  | @skips _ _ body _ _ _ _ hforeign _ ih =>
    obtain ⟨skipped, last, rfl, hskipped, hends⟩ := ih hsome
    exact ⟨.message body :: skipped, last, rfl, allForeign_cons hforeign hskipped, hends⟩

/-- What a call hears was due, and it waits on only where everything has been read and more may
come. -/
theorem Listens.hears {limit : Nat} {input : Bytes} {before : List Signal}
    (h : c.Listens signals result c') (hbefore : c.incoming.Reflects limit input before) :
    c'.incoming.Reflects limit input (before ++ signals) ∧
      (result = none → c'.incoming.isDone = false ∧ c'.incoming.unread = [] ∧
        c'.incoming.stage = .reading) := by
  induction h generalizing before with
  | waits hnext =>
    have hhears := hbefore.next
    rw [hnext] at hhears
    exact ⟨hhears.reflects, fun _ => hhears.waits rfl⟩
  | ends hnext _ =>
    have hhears := hbefore.next
    rw [hnext] at hhears
    exact ⟨hhears.reflects, nofun⟩
  | skips hnext _ _ ih =>
    have hhears := hbefore.next
    rw [hnext] at hhears
    obtain ⟨hreflects, hwaits⟩ := ih hhears.reflects
    rw [List.append_assoc] at hreflects
    exact ⟨hreflects, hwaits⟩

end Listens

theorem listens_listen {limit : Nat} {input : Bytes} {before : List Signal} {count : Nat}
    {c : Caller} (h : c.incoming.Reflects limit input before) (hcount : c.incoming.size < count) :
    c.Listens (c.hears count) (listen count c : Option (Except CallError α) × Caller).1
      (listen count c : Option (Except CallError α) × Caller).2 := by
  induction count generalizing c before with
  | zero => exact absurd hcount (Nat.not_lt_zero _)
  | succ count ih =>
    have hhears := h.next
    rw [listen, hears]
    match hnext : c.incoming.next with
    | (none, incoming) => exact .waits hnext
    | (some (.fault e), incoming) => exact .ends hnext (.fault e)
    | (some .ended, incoming) => exact .ends hnext .closed
    | (some (.message body), incoming) =>
      rw [hnext] at hhears
      dsimp only
      cases hmatch : (match? { c with incoming } body : Option (Except CallError α)) with
      | some x =>
        have hends : Ends c.latest (.message body) x :=
          ends_of_match? (c := { c with incoming }) hmatch
        obtain ⟨y, hy⟩ : ∃ y, (c.match? body : Option (Except CallError Json)) = some y :=
          Option.ne_none_iff_exists'.mp fun hnone =>
            hends.not_foreign (match?_eq_none_iff.mp hnone)
        rw [hy]
        exact .ends hnext hends
      | none =>
        have hforeign : IsForeign c.latest body :=
          match?_eq_none_iff (c := { c with incoming }).mp hmatch
        have hless := Incoming.size_lt_of_next h.tidy hnext
        rw [match?_eq_none_iff.mpr hforeign]
        exact .skips hnext hforeign (ih hhears.reflects
          (Nat.lt_of_lt_of_le hless (Nat.le_of_lt_succ hcount)))

/-- **A call that listens for its response** waits on, or is ended by what it hears, and passes over
the responses to other calls before. -/
theorem listens {limit : Nat} {input : Bytes} {before : List Signal} {c : Caller}
    (h : c.incoming.Reflects limit input before) :
    c.Listens c.heard (c.poll : Option (Except CallError α) × Caller).1
      (c.poll : Option (Except CallError α) × Caller).2 :=
  listens_listen h (Nat.lt_succ_self _)

end Caller

/-! ### The calls made on a connection -/

namespace Wait

/-- A call ends if and only if the last it has heard ends it, and it has passed over responses to
other calls before. -/
structure IsFair (w : Wait) : Prop where
  request : ∃ method params, w.request =
    (Frame.encode Frame.defaultLimit (Json.bytesOf (Request.new w.number method params))).mapError
      .framing
  unsent : ∀ e, w.request = .error e → w.heard = [] ∧ w.result = some (.error e)
  ends : ∀ bytes, w.request = .ok bytes → ∀ x, w.result = some x ↔
    ∃ skipped last, w.heard = skipped ++ [last] ∧ AllForeign w.number skipped ∧
      Ends w.number last x

/-- A call that waits and listens for its response. -/
theorem IsFair.hear {w : Wait} (h : w.IsFair) (hwaits : w.result = none)
    (hforeign : AllForeign w.number w.heard) {c c' : Caller} {signals : List Signal}
    {result : Option (Except CallError w.Result)} (hnumber : w.number = c.latest)
    (hlisten : c.Listens signals result c') : (w.hear signals result).IsFair where
  request := h.request
  unsent e he := absurd (hwaits.symm.trans (h.unsent e he).2) nofun
  ends bytes _ (x : Except CallError w.Result) := by
    show result = some x ↔ ∃ skipped last, w.heard ++ signals = skipped ++ [last] ∧
      AllForeign w.number skipped ∧ Ends w.number last x
    constructor
    · rintro rfl
      obtain ⟨skipped, last, rfl, hskipped, hends⟩ := hlisten.of_some
      rw [← hnumber] at hskipped hends
      exact ⟨w.heard ++ skipped, last, (List.append_assoc _ _ _).symm,
        allForeign_append hforeign hskipped, hends⟩
    · rintro ⟨skipped, last, hheard, hskipped, hends⟩
      cases hresult : result with
      | none =>
        subst hresult
        have hrest := hlisten.of_none
        rw [← hnumber] at hrest
        exact absurd (hheard ▸ allForeign_append hforeign hrest) (hends.not_allForeign skipped)
      | some y =>
        subst hresult
        obtain ⟨skipped', last', rfl, -, hends'⟩ := hlisten.of_some
        rw [← List.append_assoc] at hheard
        obtain rfl : last' = last := by simpa using (List.append_inj_right' hheard rfl)
        rw [← hnumber] at hends'
        exact congrArg some (hends'.unique hends)

end Wait

namespace Line

/-- The calls have different numbers and are fair, and the stream is reflected in what they have
heard. -/
structure InOrder (l : Line) : Prop where
  reflects : l.caller.incoming.Reflects Frame.defaultLimit l.input l.heard
  count : l.caller.latest.toNat = l.calls.length
  latest : ∀ w earlier, l.calls = w :: earlier → w.number = l.caller.latest
  numbers : l.calls.Pairwise fun later earlier => earlier.number < later.number
  fair : ∀ w ∈ l.calls, w.IsFair
  waiting : ∀ w ∈ l.calls, w.result = none → AllForeign w.number w.heard

namespace InOrder

variable {l : Line}

theorem number_le (h : l.InOrder) {w : Wait} (hw : w ∈ l.calls) :
    w.number ≤ l.caller.latest := by
  cases hcalls : l.calls with
  | nil =>
    rw [hcalls] at hw
    exact absurd hw List.not_mem_nil
  | cons first earlier =>
    have hfirst := h.latest first earlier hcalls
    have hnumbers := h.numbers
    rw [hcalls] at hw hnumbers
    rw [← hfirst]
    rcases List.mem_cons.mp hw with rfl | hw
    · exact UInt64.le_refl _
    · exact UInt64.le_of_lt ((List.pairwise_cons.mp hnumbers).1 w hw)

theorem call (h : l.InOrder) (α : Type) [Json.Shaped α] (method : String) (params : Json)
    (hfew : l.calls.length + 1 < UInt64.size) : (l.step (.call α method params)).InOrder := by
  have hnext : (l.caller.latest + 1).toNat = l.caller.latest.toNat + 1 := by
    have hcount := h.count
    have hsize : UInt64.size = 18446744073709551616 := rfl
    rw [UInt64.toNat_add]
    simp only [UInt64.reduceToNat]
    omega
  refine ⟨?_, ?_, ?_, ?_, ?_, ?_⟩
  · have hsame : (l.step (.call α method params)).heard = l.heard := by
      simp [heard, step, Wait.begun]
    rw [hsame]
    exact h.reflects
  · show (l.caller.latest + 1).toNat = l.calls.length + 1
    rw [hnext, h.count]
  · rintro w earlier hw
    obtain ⟨rfl, -⟩ := List.cons.inj hw
    rfl
  · refine List.pairwise_cons.mpr ⟨fun w hw => ?_, h.numbers⟩
    have hle := UInt64.le_iff_toNat_le.mp (h.number_le hw)
    refine UInt64.lt_iff_toNat_lt.mpr ?_
    show w.number.toNat < (l.caller.latest + 1).toNat
    omega
  · refine List.forall_mem_cons.mpr ⟨⟨⟨method, params, ?_⟩, ?_, ?_⟩, h.fair⟩
    · show ((Frame.encode l.caller.incoming.receiver.limit _).mapError CallError.framing) = _
      rw [h.reflects.limit_eq]
      rfl
    · intro e he
      exact ⟨rfl, congrArg Wait.atFirst he⟩
    · intro bytes hbytes x
      constructor
      · intro hx
        exact absurd ((congrArg Wait.atFirst hbytes).symm.trans hx) nofun
      · rintro ⟨skipped, last, hheard, -⟩
        exact absurd hheard (by simp [Wait.begun])
  · exact List.forall_mem_cons.mpr ⟨fun _ => allForeign_nil _, h.waiting⟩

theorem arrive (h : l.InOrder) (chunk : Bytes) : (l.step (.arrive chunk)).InOrder := by
  rw [step]
  split
  · exact h
  · rename_i hopen
    exact ⟨h.reflects.arrive chunk (Bool.eq_false_iff.mpr hopen), h.count, h.latest, h.numbers,
      h.fair, h.waiting⟩

theorem peerDone (h : l.InOrder) : (l.step .peerDone).InOrder :=
  ⟨h.reflects.close, h.count, h.latest, h.numbers, h.fair, h.waiting⟩

/-- Only a call that waits listens for its response. -/
theorem step_listen (h : l.InOrder) :
    (l.step .listen = l ∧ ∀ w earlier, l.calls = w :: earlier → w.result ≠ none) ∨
      ∃ w earlier result c', l.calls = w :: earlier ∧ w.result = none ∧
        l.caller.Listens (α := w.Result) l.caller.heard result c' ∧
        l.step .listen =
          { l with caller := c', calls := w.hear l.caller.heard result :: earlier } := by
  rw [step]
  match hcalls : l.calls with
  | [] => exact .inl ⟨rfl, fun _ _ h => absurd h.symm (List.cons_ne_nil _ _)⟩
  | w :: earlier =>
    dsimp only
    split <;> rename_i hresult
    · refine .inl ⟨rfl, ?_⟩
      rintro w' earlier' hw'
      obtain ⟨rfl, -⟩ := List.cons.inj hw'
      exact Option.isSome_iff_ne_none.mp hresult
    · exact .inr ⟨w, earlier, _, _, rfl, by simpa using hresult, Caller.listens h.reflects, rfl⟩

theorem listen (h : l.InOrder) : (l.step .listen).InOrder := by
  obtain ⟨hsame, -⟩ | ⟨w, earlier, result, c', hcalls, hnone, hlisten, hstep⟩ := h.step_listen
  · rwa [hsame]
  · rw [hstep]
    have hmem : w ∈ l.calls := hcalls ▸ List.mem_cons_self
    have hnumber := h.latest w earlier hcalls
    have hnumbers := h.numbers
    have hfair := h.fair
    have hwaiting := h.waiting
    rw [hcalls] at hnumbers hfair hwaiting
    refine ⟨?_, ?_, ?_, ?_, ?_, ?_⟩
    · have hmore : Line.heard { l with
          caller := c', calls := w.hear l.caller.heard result :: earlier } =
          l.heard ++ l.caller.heard := by
        simp [heard, hcalls, Wait.hear]
      rw [hmore]
      exact (hlisten.hears h.reflects).1
    · rw [hlisten.latest_eq, h.count, hcalls]
      rfl
    · rintro w' earlier' hw'
      obtain ⟨rfl, -⟩ := List.cons.inj hw'
      exact hnumber.trans hlisten.latest_eq.symm
    · exact List.pairwise_cons.mpr (List.pairwise_cons.mp hnumbers)
    · obtain ⟨hfirst, hrest⟩ := List.forall_mem_cons.mp hfair
      refine List.forall_mem_cons.mpr ⟨?_, hrest⟩
      exact hfirst.hear hnone (h.waiting w hmem hnone) hnumber hlisten
    · refine List.forall_mem_cons.mpr ⟨?_, (List.forall_mem_cons.mp hwaiting).2⟩
      rintro (rfl : result = none)
      have hrest := hlisten.of_none
      rw [← hnumber] at hrest
      exact allForeign_append (h.waiting w hmem hnone) hrest

/-- **Every event keeps a line in order**, as long as there are numbers left for its calls. -/
theorem step (h : l.InOrder) {e : Event}
    (hfew : l.calls.length + (if e.isCall then 1 else 0) < UInt64.size) :
    (l.step e).InOrder := by
  cases e with
  | call α method params => exact h.call α method params hfew
  | arrive chunk => exact h.arrive chunk
  | peerDone => exact h.peerDone
  | listen => exact h.listen

end InOrder

theorem length_calls_step (l : Line) (e : Event) :
    (l.step e).calls.length ≤ l.calls.length + if e.isCall then 1 else 0 := by
  cases e with
  | call => exact Nat.le_refl _
  | arrive chunk =>
    rw [step]
    split <;> exact Nat.le_refl _
  | peerDone => exact Nat.le_refl _
  | listen =>
    rw [step]
    match hcalls : l.calls with
    | [] => simp [hcalls]
    | w :: earlier =>
      dsimp only
      split
      · simp [hcalls]
      · exact Nat.le_refl _

theorem InOrder.run {l : Line} (h : l.InOrder) {es : List Event}
    (hfew : l.calls.length + es.countP Event.isCall < UInt64.size) : (l.run es).InOrder := by
  induction es generalizing l with
  | nil => exact h
  | cons e es ih =>
    have hlength := l.length_calls_step e
    rw [List.countP_cons] at hfew
    exact ih (h.step (by omega)) (by omega)

end Line

end Rpc

end PlatformProxy
