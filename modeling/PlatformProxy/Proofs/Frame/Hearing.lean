import PlatformProxy.Frame.Incoming
import PlatformProxy.Proofs.Frame.Chunks

/-!
# Hearing a byte stream

Whoever listens to a stream hears its messages in order, each once, wherever the stream is cut and
whenever it is listened to. Faults do not change that. What is at fault stays in the stream, and a
receiver that has met it finds later what it would have found without. The messages heard are
therefore those that are taken off the whole stream, with faults and ends heard between them.

The end is what a fault makes hard to read. It is heard when the peer is done and nothing is left,
but it is also heard once behind every fault, though the peer may not be done and messages may still
come. So what is stated of the end names all the ways it comes to be heard. Where no fault was heard
before, only the first is left.

## Main definitions

* `Frame.Due` — what may be heard of a stream, by what has been heard before
* `Frame.Follows` — everything heard was due
* `Frame.Incoming.Reflects` — a stream, what has been heard of it, and the side that listens to it

## Main results

* `Frame.Incoming.Reflects.next` — what is heard next is due, and nothing is heard only where
  everything has been read and more may come
* `Frame.Follows.ends_cleanly` — the end, where no fault was heard before
* `Frame.Follows.no_message_behind_fault` — only a long header can become a message after all
-/

namespace PlatformProxy

namespace Frame

namespace Signal

def body? : Signal → Option Bytes
  | message body => some body
  | _ => none

/-- The messages among what is heard. -/
def bodies (heard : List Signal) : List Bytes := heard.filterMap body?

theorem bodies_append (heard heard' : List Signal) :
    bodies (heard ++ heard') = bodies heard ++ bodies heard' :=
  List.filterMap_append

@[simp] theorem bodies_message (body : Bytes) (heard : List Signal) :
    bodies (message body :: heard) = body :: bodies heard := rfl

@[simp] theorem bodies_fault (e : Error) (heard : List Signal) :
    bodies (fault e :: heard) = bodies heard := rfl

end Signal

open Signal (bodies)

/-! ### What may be heard -/

/-- What may be heard of a stream behind what has been heard of it before. `input` is what has come
by now, and `isDone` says that it is all. -/
inductive Due (limit : Nat) (input : Bytes) (isDone : Bool) (before : List Signal) : Signal → Prop
  | message {body : Bytes} {more : List Bytes}
      (htaken : (Receiver.drain ⟨limit, none, input⟩).1 = bodies before ++ body :: more) :
      Due limit input isDone before (.message body)
  /-- A fault that stands behind the messages of what had been read. -/
  | fault {read toCome : Bytes} {e : Error} (hinput : input = read ++ toCome)
      (htaken : Receiver.drain ⟨limit, none, read⟩ = (bodies before, .error e)) :
      Due limit input isDone before (.fault e)
  /-- The stream ends inside a message. -/
  | truncated {r : Receiver} (hdone : isDone = true)
      (htaken : Receiver.drain ⟨limit, none, input⟩ = (bodies before, .ok r))
      (hrest : r.buffer ≠ []) : Due limit input isDone before (.fault .truncated)
  /-- The stream ends, and nothing is left of it. -/
  | clean {r : Receiver} (hdone : isDone = true)
      (htaken : Receiver.drain ⟨limit, none, input⟩ = (bodies before, .ok r))
      (hrest : r.buffer = []) : Due limit input isDone before .ended
  | behindFault {first : List Signal} {e : Error} (hbefore : before = first ++ [.fault e]) :
      Due limit input isDone before .ended
  | again {first : List Signal} (hdone : isDone = true) (hbefore : before = first ++ [.ended]) :
      Due limit input isDone before .ended

/-- Everything that has been heard of a stream was due. -/
def Follows (limit : Nat) (input : Bytes) (isDone : Bool) (heard : List Signal) : Prop :=
  ∀ ⦃before : List Signal⦄ ⦃s : Signal⦄ ⦃behind : List Signal⦄,
    heard = before ++ s :: behind → Due limit input isDone before s

section Due

variable {limit : Nat} {input : Bytes} {isDone : Bool} {before heard : List Signal} {s : Signal}

/-- More bytes do not take back what was due. -/
theorem Due.append (h : Due limit input false before s) (more : Bytes) :
    Due limit (input ++ more) false before s := by
  cases h with
  | message htaken =>
    obtain ⟨rest, hrest⟩ := Receiver.prefix_drain_feed ⟨limit, none, input⟩ more
    rw [htaken, List.append_assoc] at hrest
    exact .message hrest.symm
  | @fault read toCome e hinput htaken =>
    have hmore : input ++ more = read ++ (toCome ++ more) := by rw [hinput, List.append_assoc]
    exact .fault hmore htaken
  | truncated hdone => exact absurd hdone Bool.false_ne_true
  | clean hdone => exact absurd hdone Bool.false_ne_true
  | behindFault hbefore => exact .behindFault hbefore
  | again hdone => exact absurd hdone Bool.false_ne_true

theorem Due.close (h : Due limit input isDone before s) : Due limit input true before s := by
  cases h with
  | message htaken => exact .message htaken
  | fault hinput htaken => exact .fault hinput htaken
  | truncated _ htaken hrest => exact .truncated rfl htaken hrest
  | clean _ htaken hrest => exact .clean rfl htaken hrest
  | behindFault hbefore => exact .behindFault hbefore
  | again _ hbefore => exact .again rfl hbefore

theorem Follows.snoc (h : Follows limit input isDone heard) (hs : Due limit input isDone heard s) :
    Follows limit input isDone (heard ++ [s]) := by
  intro before s' behind hheard
  rcases List.eq_nil_or_concat behind with rfl | ⟨rest, last, rfl⟩
  · obtain ⟨rfl, hlast⟩ := List.append_inj' hheard rfl
    obtain rfl := List.head_eq_of_cons_eq hlast
    exact hs
  · rw [List.concat_eq_append, ← List.cons_append, ← List.append_assoc] at hheard
    exact h (List.append_inj' hheard rfl).1

/-- **Behind a fault no message is heard**, unless the fault was a long header, which may become
whole. -/
theorem Follows.no_message_behind_fault (h : Follows limit input isDone heard) {e : Error}
    {behind : List Signal} (hheard : heard = before ++ .fault e :: behind)
    (hother : e ≠ .longHeader headerLimit) (body : Bytes) : .message body ∉ behind := by
  have htaken : (Receiver.drain ⟨limit, none, input⟩).1 = bodies before := by
    cases h hheard with
    | @fault read toCome _ hinput htaken =>
      obtain hsame | ⟨hlong, -⟩ := Receiver.drain_append_cases htaken toCome
      · rw [hinput, hsame]
      · exact absurd hlong hother
    | truncated _ htaken _ => rw [htaken]
  intro hmem
  obtain ⟨first, last, rfl⟩ := List.append_of_mem hmem
  rw [← List.cons_append, ← List.append_assoc] at hheard
  cases h hheard with
  | message hmore =>
    rw [htaken, Signal.bodies_append] at hmore
    simpa using congrArg List.length hmore

end Due

/-! ### The side that listens -/

namespace Incoming

/-- What has been heard of a stream, a receiver that has read up to the unread chunks, and whether
the peer is done. -/
structure Tracks (limit : Nat) (input : Bytes) (heard : List Signal) (receiver : Receiver)
    (unread : List Bytes) (isDone : Bool) : Prop where
  limit_eq : receiver.limit = limit
  tidy : receiver.IsTidy
  follows : Follows limit input isDone heard
  taken : ∃ read r, input = read ++ unread.flatten ∧
    (Receiver.mk limit none read).Takes (bodies heard) r ∧ r.Agrees receiver

/-- What a stage says of what has been heard and read. -/
def Fits (i : Incoming) (heard : List Signal) : Prop :=
  match i.stage with
  | .reading =>
    i.receiver.decode = (.ok none, i.receiver) ∨ ∃ before e, heard = before ++ [.fault e, .ended]
  | .framing => True
  | .ending => i.isDone = true ∧ i.unread = []
  | .closed => i.isDone = true ∧ i.unread = [] ∧ ∃ before, heard = before ++ [.ended]
  | .failed atEnd =>
    (∃ before e, heard = before ++ [.fault e]) ∧ (atEnd = true → i.isDone = true ∧ i.unread = [])

/-- A stream, what has been heard of it, and the side that listens to it. -/
structure Reflects (limit : Nat) (input : Bytes) (heard : List Signal) (i : Incoming) : Prop
    extends Tracks limit input heard i.receiver i.unread i.isDone where
  fits : i.Fits heard

/-- What comes of listening. Where nothing is heard, everything has been read and more may come. -/
structure Hears (limit : Nat) (input : Bytes) (heard : List Signal) (found : Option Signal)
    (i : Incoming) : Prop where
  reflects : Reflects limit input (heard ++ found.toList) i
  waits : found = none → i.isDone = false ∧ i.unread = [] ∧ i.stage = .reading

section Tracks

variable {limit : Nat} {input : Bytes} {heard : List Signal} {receiver r' : Receiver}
  {unread : List Bytes} {isDone : Bool}

theorem Tracks.read {chunk : Bytes}
    (h : Tracks limit input heard receiver (chunk :: unread) isDone) :
    Tracks limit input heard (receiver.feed chunk) unread isDone := by
  obtain ⟨read, r, hinput, htakes, hagrees⟩ := h.taken
  refine ⟨h.limit_eq, h.tidy, h.follows, read ++ chunk, r.feed chunk, ?_, htakes.feed chunk,
    hagrees.feed chunk⟩
  rw [hinput, List.flatten_cons, List.append_assoc]

theorem Tracks.wait (h : Tracks limit input heard receiver unread isDone)
    (hnone : receiver.decode = (.ok none, r')) : Tracks limit input heard r' unread isDone := by
  obtain ⟨read, r, hinput, htakes, hagrees⟩ := h.taken
  exact ⟨(Receiver.limit_of_decode hnone).trans h.limit_eq, Receiver.isTidy_decode hnone, h.follows,
    read, r, hinput, htakes, hagrees.of_none hnone⟩

/-- Hearing what is no message takes nothing off the stream. -/
theorem Tracks.hear (h : Tracks limit input heard receiver unread isDone) {s : Signal}
    (hdue : Due limit input isDone heard s) (hs : s.body? = none) :
    Tracks limit input (heard ++ [s]) receiver unread isDone := by
  obtain ⟨read, r, hinput, htakes, hagrees⟩ := h.taken
  refine ⟨h.limit_eq, h.tidy, h.follows.snoc hdue, read, r, hinput, ?_, hagrees⟩
  have hsame : bodies (heard ++ [s]) = bodies heard := by
    rw [Signal.bodies_append, bodies, bodies, List.filterMap_cons_none hs, List.filterMap_nil,
      List.append_nil]
  rwa [hsame]

theorem Tracks.message {body : Bytes} (h : Tracks limit input heard receiver unread isDone)
    (hbody : receiver.decode = (.ok (some body), r')) :
    Tracks limit input (heard ++ [.message body]) r' unread isDone := by
  obtain ⟨read, r, hinput, htakes, hagrees⟩ := h.taken
  have hnext : r.decode = (.ok (some body), r') := hagrees.decode.trans hbody
  have hmore : bodies (heard ++ [.message body]) = bodies heard ++ [body] :=
    Signal.bodies_append heard _
  have htakes' : (Receiver.mk limit none read).Takes (bodies heard ++ [body]) r' :=
    htakes.snoc hnext
  have hdrain : (Receiver.drain ⟨limit, none, input⟩).1 =
      bodies heard ++ body :: (r'.feed unread.flatten).drain.1 := by
    have hfeed : (Receiver.mk limit none read).feed unread.flatten = ⟨limit, none, input⟩ := by
      rw [hinput]
      rfl
    rw [← hfeed, Receiver.drain_of_takes (htakes'.feed unread.flatten), List.append_assoc]
    rfl
  exact ⟨(Receiver.limit_of_decode hbody).trans h.limit_eq, Receiver.isTidy_decode hbody,
    h.follows.snoc (.message hdrain), read, r', hinput, hmore ▸ htakes', .refl r'⟩

theorem Tracks.fault {e : Error} (h : Tracks limit input heard receiver unread isDone)
    (hfault : receiver.decode = (.error e, r')) :
    Tracks limit input (heard ++ [.fault e]) r' unread isDone := by
  obtain ⟨read, r, hinput, htakes, hagrees⟩ := h.taken
  have hdue : Due limit input isDone heard (.fault e) := by
    refine .fault hinput ?_
    rw [Receiver.drain_of_takes htakes, Receiver.drain_of_error (hagrees.decode.trans hfault),
      List.append_nil]
  have hsame : Tracks limit input heard r' unread isDone :=
    ⟨(Receiver.limit_of_decode hfault).trans h.limit_eq, Receiver.isTidy_decode hfault, h.follows,
      read, r, hinput, htakes, hagrees.of_error hfault⟩
  exact hsame.hear hdue rfl

/-- When everything has been read and no message is there, all messages have been heard. -/
theorem Tracks.drain_eq (h : Tracks limit input heard receiver [] isDone)
    (hnone : receiver.decode = (.ok none, r')) :
    Receiver.drain ⟨limit, none, input⟩ = (bodies heard, .ok r') := by
  obtain ⟨read, r, hinput, htakes, hagrees⟩ := h.taken
  obtain rfl : input = read := by simpa using hinput
  rw [Receiver.drain_of_takes htakes, Receiver.drain_of_none (hagrees.decode.trans hnone),
    List.append_nil]

end Tracks

variable {limit : Nat} {input : Bytes} {heard : List Signal} {i : Incoming}

theorem Tracks.lookAtEnd (h : Tracks limit input heard i.receiver i.unread i.isDone)
    (hread : i.unread = []) (hdone : i.isDone = true) :
    Reflects limit input (heard ++ [i.lookAtEnd.1]) i.lookAtEnd.2 := by
  rw [Incoming.lookAtEnd]
  match hdecode : i.receiver.decode with
  | (.error e, r') =>
    rw [Receiver.finish_of_ne_none (by rw [hdecode]; nofun), hdecode]
    exact ⟨h.fault hdecode, ⟨heard, e, rfl⟩, fun _ => ⟨hdone, hread⟩⟩
  | (.ok (some body), r') =>
    rw [Receiver.finish_of_ne_none (by rw [hdecode]; simp), hdecode]
    exact ⟨h.message hdecode, hdone, hread⟩
  | (.ok none, r') =>
    have hdrain := (hread ▸ h).drain_eq hdecode
    rw [Receiver.finish_of_none hdecode]
    cases hempty : r'.buffer.isEmpty with
    | true =>
      have hdue := Due.clean hdone hdrain (List.isEmpty_iff.mp hempty)
      exact ⟨(h.wait hdecode).hear hdue rfl, hdone, hread, heard, rfl⟩
    | false =>
      have hdue := Due.truncated hdone hdrain (by simpa using hempty)
      exact ⟨(h.wait hdecode).hear hdue rfl, ⟨heard, .truncated, rfl⟩, fun _ => ⟨hdone, hread⟩⟩

/-- A read that finds no chunk: the peer is done, or there is nothing to hear. -/
theorem Reflects.readNothing (h : Reflects limit input heard i) (hread : i.unread = [])
    (hstage : i.stage = .reading ∨ i.stage = .closed) :
    Hears limit input heard i.readNothing.1 i.readNothing.2 := by
  have hfits := h.fits
  rw [Incoming.readNothing]
  split <;> rename_i hdone
  · rcases hstage with hstage | hstage
    · rw [hstage]
      exact ⟨h.toTracks.lookAtEnd hread hdone, nofun⟩
    · rw [Fits, hstage] at hfits
      rw [hstage]
      obtain ⟨-, -, before, hbefore⟩ := hfits
      refine ⟨⟨h.hear (.again hdone hbefore) rfl, ?_⟩, nofun⟩
      rw [Fits, hstage]
      exact ⟨hdone, hread, heard, rfl⟩
  · rcases hstage with hstage | hstage
    · refine ⟨?_, fun _ => ⟨Bool.eq_false_iff.mpr hdone, hread, hstage⟩⟩
      rw [Option.toList_none, List.append_nil]
      exact h
    · rw [Fits, hstage] at hfits
      exact absurd hfits.1 hdone

/-- Looking into what has been read, and reading on. -/
theorem Tracks.look {unread : List Bytes}
    (h : Tracks limit input heard i.receiver unread i.isDone) :
    Hears limit input heard (i.look unread).1 (i.look unread).2 := by
  induction unread generalizing i with
  | nil =>
    rw [Incoming.look]
    match hdecode : i.receiver.decode with
    | (.error e, r') => exact ⟨⟨h.fault hdecode, ⟨heard, e, rfl⟩, nofun⟩, nofun⟩
    | (.ok (some body), r') => exact ⟨⟨h.message hdecode, trivial⟩, nofun⟩
    | (.ok none, r') =>
      have hreflects : Reflects limit input heard
          { i with receiver := r', unread := [], stage := .reading } :=
        ⟨h.wait hdecode, .inl (Receiver.decode_of_decode_none hdecode)⟩
      exact hreflects.readNothing rfl (.inl rfl)
  | cons chunk rest ih =>
    rw [Incoming.look]
    match hdecode : i.receiver.decode with
    | (.error e, r') => exact ⟨⟨h.fault hdecode, ⟨heard, e, rfl⟩, nofun⟩, nofun⟩
    | (.ok (some body), r') => exact ⟨⟨h.message hdecode, trivial⟩, nofun⟩
    | (.ok none, r') => exact ih (i := { i with receiver := r'.feed chunk }) (h.wait hdecode).read

theorem Reflects.readOn (h : Reflects limit input heard i)
    (hstage : i.stage = .reading ∨ i.stage = .closed) :
    Hears limit input heard i.readOn.1 i.readOn.2 := by
  rw [Incoming.readOn]
  split <;> rename_i hunread
  · exact h.readNothing hunread hstage
  · rename_i chunk rest
    have hread : Tracks limit input heard i.receiver (chunk :: rest) i.isDone :=
      hunread ▸ h.toTracks
    exact Tracks.look (i := { i with receiver := i.receiver.feed chunk }) hread.read

/-- **What is heard next was due.** Nothing is heard only where everything has been read and more
may come. -/
theorem Reflects.next (h : Reflects limit input heard i) :
    Hears limit input heard i.next.1 i.next.2 := by
  have hfits := h.fits
  rw [Fits] at hfits
  rw [Incoming.next]
  split <;> rename_i hstage
  · exact h.readOn (.inl hstage)
  · exact h.readOn (.inr hstage)
  · exact h.look
  · rw [hstage] at hfits
    exact ⟨h.lookAtEnd hfits.2 hfits.1, nofun⟩
  · rename_i atEnd
    rw [hstage] at hfits
    obtain ⟨⟨before, e, rfl⟩, hdone⟩ := hfits
    refine ⟨⟨h.hear (.behindFault rfl) rfl, ?_⟩, nofun⟩
    cases atEnd with
    | true => exact ⟨(hdone rfl).1, (hdone rfl).2, _, rfl⟩
    | false => exact .inr ⟨before, e, List.append_assoc _ _ _⟩

/-! ### What comes from outside -/

theorem Reflects.arrive (h : Reflects limit input heard i) (chunk : Bytes)
    (hopen : i.isDone = false) : Reflects limit (input ++ chunk) heard (i.arrive chunk) := by
  have hfits := h.fits
  obtain ⟨read, r, hinput, htakes, hagrees⟩ := h.taken
  have hfollows : Follows limit (input ++ chunk) i.isDone heard := by
    have hbefore := h.follows
    rw [hopen] at hbefore ⊢
    exact fun _ _ _ hheard => (hbefore hheard).append chunk
  cases chunk with
  | nil =>
    have hsame : i.arrive [] = i := by simp [Incoming.arrive]
    rw [hsame, List.append_nil]
    exact h
  | cons b rest =>
    have hnext : i.arrive (b :: rest) = { i with unread := i.unread ++ [b :: rest] } := by
      simp [Incoming.arrive, hopen]
    rw [hnext]
    refine ⟨⟨h.limit_eq, h.tidy, hfollows, read, r, ?_, htakes, hagrees⟩, ?_⟩
    · simp [hinput]
    · rw [Fits] at hfits ⊢
      cases hstage : i.stage <;> simp_all

theorem Reflects.close (h : Reflects limit input heard i) :
    Reflects limit input heard i.close := by
  have hfits := h.fits
  refine ⟨⟨h.limit_eq, h.tidy, fun _ _ _ hheard => (h.follows hheard).close, h.taken⟩, ?_⟩
  rw [Fits] at hfits ⊢
  cases hstage : i.stage <;> simp_all [Incoming.close]

/-! ### Whether the peer is done -/

theorem isDone_lookAtEnd (i : Incoming) : i.lookAtEnd.2.isDone = i.isDone := by
  rw [lookAtEnd]
  split <;> rfl

theorem isDone_readNothing (i : Incoming) : i.readNothing.2.isDone = i.isDone := by
  rw [readNothing]
  split
  · split
    · rfl
    · exact isDone_lookAtEnd i
  · rfl

theorem isDone_look (i : Incoming) (unread : List Bytes) :
    (i.look unread).2.isDone = i.isDone := by
  induction unread generalizing i with
  | nil =>
    rw [look]
    split
    · rfl
    · rfl
    · exact isDone_readNothing _
  | cons chunk rest ih =>
    rw [look]
    split
    · rfl
    · rfl
    · exact ih _

/-- Listening does not decide whether the peer is done. -/
theorem isDone_next (i : Incoming) : i.next.2.isDone = i.isDone := by
  have hread : i.readOn.2.isDone = i.isDone := by
    rw [readOn]
    split
    · exact isDone_readNothing i
    · exact isDone_look _ _
  rw [next]
  split
  · exact hread
  · exact hread
  · exact isDone_look i _
  · exact isDone_lookAtEnd i
  · rfl

/-! ### Every message takes bytes -/

section Size

variable {i' : Incoming} {body : Bytes}

theorem size_lt_of_lookAtEnd (htidy : i.receiver.IsTidy)
    (h : i.lookAtEnd = (.message body, i')) : i'.size < i.size := by
  rw [lookAtEnd] at h
  split at h <;> rename_i hfinish
  · cases h
  · cases h
  · obtain ⟨hbody, rfl⟩ := Prod.mk.inj h
    have hdecode := Receiver.decode_of_finish_some hfinish
    exact Nat.add_lt_add_right (Receiver.length_lt_of_decode htidy hdecode) _

theorem size_lt_of_readNothing (htidy : i.receiver.IsTidy)
    (h : i.readNothing = (some (.message body), i')) : i'.size < i.size := by
  rw [readNothing] at h
  split at h
  · split at h
    · cases h
    · obtain ⟨hsignal, rfl⟩ := Prod.mk.inj h
      exact size_lt_of_lookAtEnd htidy (Prod.ext (Option.some.inj hsignal) rfl)
  · cases h

theorem size_lt_of_look (htidy : i.receiver.IsTidy) {unread : List Bytes}
    (h : i.look unread = (some (.message body), i')) :
    i'.size < i.receiver.buffer.length + unread.flatten.length := by
  induction unread generalizing i with
  | nil =>
    rw [look] at h
    split at h <;> rename_i hdecode
    · cases h
    · obtain ⟨-, rfl⟩ := Prod.mk.inj h
      exact Nat.add_lt_add_right (Receiver.length_lt_of_decode htidy hdecode) _
    · have hlt := size_lt_of_readNothing (Receiver.isTidy_decode hdecode) h
      exact Nat.lt_of_lt_of_le hlt
        (Nat.add_le_add_right (Receiver.length_le_of_decode_none hdecode) _)
  | cons chunk rest ih =>
    rw [look] at h
    split at h <;> rename_i hdecode
    · cases h
    · obtain ⟨-, rfl⟩ := Prod.mk.inj h
      exact Nat.add_lt_add_right (Receiver.length_lt_of_decode htidy hdecode) _
    · rename_i r'
      have htidy' : r'.IsTidy := Receiver.isTidy_decode hdecode
      have hlt := ih (i := { i with receiver := r'.feed chunk }) htidy' h
      have hle := Receiver.length_le_of_decode_none hdecode
      simp only [Receiver.feed, List.length_append, List.flatten_cons] at hlt ⊢
      omega

/-- **Every message takes at least one byte.** -/
theorem size_lt_of_next (htidy : i.receiver.IsTidy)
    (h : i.next = (some (.message body), i')) : i'.size < i.size := by
  have hreadOn (h : i.readOn = (some (.message body), i')) : i'.size < i.size := by
    rw [readOn] at h
    split at h <;> rename_i hunread
    · exact size_lt_of_readNothing htidy h
    · rename_i chunk rest
      have hlt := size_lt_of_look (i := { i with receiver := i.receiver.feed chunk }) htidy h
      simp only [Receiver.feed, List.length_append] at hlt
      show i'.size < i.receiver.buffer.length + i.unread.flatten.length
      rw [hunread, List.flatten_cons, List.length_append]
      omega
  rw [next] at h
  split at h
  · exact hreadOn h
  · exact hreadOn h
  · exact size_lt_of_look htidy h
  · obtain ⟨hsignal, rfl⟩ := Prod.mk.inj h
    exact size_lt_of_lookAtEnd htidy (Prod.ext (Option.some.inj hsignal) rfl)
  · cases h

end Size

end Incoming

end Frame

end PlatformProxy
