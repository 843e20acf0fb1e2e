import PlatformProxy.Proofs.Frame.LongHeaders

/-!
# The bytes of a stream are accounted for

A receiver takes bytes off the front of its buffer at three places: blank lines, a header, a body.
It may stop between any two of them and go on when it is asked again, so what one look for a message
takes off is only part of an account. The other part is what earlier looks have taken off since the
last message, and all that a receiver keeps of it is the length of a body.

Nothing is taken for granted of the buffers. Each look may be at a buffer of its own, as long as the
receiver is one that has looked before or is new.

## Main definitions

* `Frame.Opening` — what has been taken off since the last message, and what is remembered of it
* `Frame.Spends` — what a look takes off, by what it finds
* `Frame.Between` — looks at any buffers
* `Frame.Account` — a stream that comes in pieces, with what has been taken off it

## Main results

* `Frame.Receiver.spends_of_opening` — a look takes off the front what it finds, and no more
* `Frame.Account.balanced_run` — what has come is what was taken off and what is left
* `Frame.bytes_are_accounted_for` — both, and an end of all looking

## Implementation notes

What a look takes off is computed from lengths alone. That it is the front of the buffer, and what
it consists of, is proved.
-/

namespace PlatformProxy

namespace Frame

theorem blankLines_add (m n : Nat) : blankLines (m + n) = blankLines m ++ blankLines n := by
  rw [blankLines, ← List.replicate_append_replicate, List.flatten_append]
  rfl

/-! ### One look -/

/-- What has been taken off a stream since its last message, and the length that is remembered of
it: blank lines, and behind them the header of a body that is not there yet. -/
inductive Opening (limit : Nat) : Bytes → Option Nat → Prop
  | blank (n : Nat) : Opening limit (blankLines n) none
  | header (n : Nat) {lines : Bytes} {length : Nat} (hlines : IsHeader lines)
      (hlength : announcedLength lines = .ok length) (hpos : 0 < length)
      (hlimit : length ≤ limit) : Opening limit (blankLines n ++ (lines ++ lineEnd)) (some length)

/-- What a look for a message takes off a buffer, with what it finds and what it leaves. Before it,
`opening` has been taken off since the last message. -/
inductive Spends (limit : Nat) (opening : Bytes) :
    Option Nat → Bytes → Except Error (Option Bytes) → Receiver → Prop
  /-- A body, and of what stands before it all that was not taken off yet. -/
  | message (n : Nat) {remembered : Option Nat} {lines : Bytes} (before body rest : Bytes)
      (hlines : IsHeader lines) (hlength : announcedLength lines = .ok body.length)
      (hlimit : body.length ≤ limit)
      (hbefore : opening ++ before = blankLines n ++ (lines ++ lineEnd)) :
      Spends limit opening remembered (before ++ body) (.ok (some body)) ⟨limit, none, rest⟩
  | blank (n : Nat) (rest : Bytes) :
      Spends limit opening none (blankLines n) (.ok none) ⟨limit, none, rest⟩
  | header (n : Nat) {lines rest : Bytes} {length : Nat} (hlines : IsHeader lines)
      (hlength : announcedLength lines = .ok length) (hlimit : length ≤ limit)
      (hshort : rest.length < length) :
      Spends limit opening none (blankLines n ++ (lines ++ lineEnd)) (.ok none)
        ⟨limit, some length, rest⟩
  | nothing {rest : Bytes} {length : Nat} (hlimit : length ≤ limit)
      (hshort : rest.length < length) :
      Spends limit opening (some length) [] (.ok none) ⟨limit, some length, rest⟩
  /-- The fault stays where it is. -/
  | fault (n : Nat) {rest : Bytes} {e : Error}
      (hagain : Receiver.decode ⟨limit, none, rest⟩ = (.error e, ⟨limit, none, rest⟩)) :
      Spends limit opening none (blankLines n) (.error e) ⟨limit, none, rest⟩

namespace Receiver

/-- As many bytes at the front of the buffer as the next look takes off. -/
def spent (r : Receiver) : Bytes := r.buffer.take (r.buffer.length - r.decode.2.buffer.length)

theorem spent_eq {r : Receiver} {taken : Bytes} (h : r.buffer = taken ++ r.decode.2.buffer) :
    r.spent = taken := by
  have hlength := congrArg List.length h
  rw [List.length_append] at hlength
  have htaken : r.buffer.length - r.decode.2.buffer.length = taken.length := by omega
  rw [spent, htaken, h, List.take_left]

/-- Where a message begins, a look takes off what stands there. -/
theorem spends_of_front {limit : Nat} (n : Nat) {buffer : Bytes}
    {result : Except Error (Option Bytes)} {r : Receiver} (h : Front limit buffer result r) :
    ∃ taken, buffer = taken ++ r.buffer ∧
      Spends limit (blankLines n) none taken result r := by
  cases h with
  | @message m lines body rest hlines hlength hlimit =>
    refine ⟨blankLines m ++ (lines ++ lineEnd) ++ body, by simp only [List.append_assoc],
      .message (n + m) _ body rest hlines hlength hlimit ?_⟩
    rw [blankLines_add, List.append_assoc]
  | inBody m part hlines hlength hlimit hpart =>
    exact ⟨_, (List.append_assoc _ _ _).symm, .header m hlines hlength hlimit hpart⟩
  | inHeader m hblank hopen hshort => exact ⟨_, rfl, .blank m _⟩
  | longHeader m hblank hopen hlong =>
    exact ⟨_, rfl, .fault m (decode_of_front (.longHeader 0 hblank hopen hlong))⟩
  | badHeader m rest hlines hlength =>
    exact ⟨_, rfl, .fault m (decode_of_front (.badHeader 0 rest hlines hlength))⟩
  | longBody m rest hlines hlength hlimit =>
    exact ⟨_, rfl, .fault m (decode_of_front (.longBody 0 rest hlines hlength hlimit))⟩

/-- **A look takes off the front of any buffer what it finds there, and no more.** -/
theorem spends_of_opening {r : Receiver} {opening : Bytes}
    (h : Opening r.limit opening r.bodyLength) :
    r.buffer = r.spent ++ r.decode.2.buffer ∧
      Spends r.limit opening r.bodyLength r.spent r.decode.1 r.decode.2 := by
  obtain ⟨taken, hbuffer, hspends⟩ : ∃ taken, r.buffer = taken ++ r.decode.2.buffer ∧
      Spends r.limit opening r.bodyLength taken r.decode.1 r.decode.2 := by
    obtain ⟨limit, remembered, buffer⟩ := r
    cases h with
    | blank n =>
      obtain ⟨result, r', hfront⟩ := exists_front limit buffer
      rw [decode_of_front hfront]
      exact spends_of_front n hfront
    | @header n lines length hlines hlength hpos hlimit =>
      rw [decode]
      dsimp only
      rw [takeBody]
      split <;> rename_i hshort
      · exact ⟨[], rfl, .nothing hlimit hshort⟩
      · have hbody : (buffer.take length).length = length :=
          List.length_take_of_le (Nat.le_of_not_lt hshort)
        exact ⟨_, (List.take_append_drop length buffer).symm,
          .message n [] (buffer.take length) (buffer.drop length) hlines
            (by rw [hbody, hlength]) (by rwa [hbody]) (List.append_nil _)⟩
  rw [spent_eq hbuffer]
  exact ⟨hbuffer, hspends⟩

end Receiver

/-- What is remembered after a look stands for what has been taken off by then. -/
theorem Opening.next {limit : Nat} {opening taken : Bytes} {remembered : Option Nat}
    {result : Except Error (Option Bytes)} {r : Receiver} (h : Opening limit opening remembered)
    (hspends : Spends limit opening remembered taken result r)
    (hresult : ∀ body, result ≠ .ok (some body)) :
    Opening limit (opening ++ taken) r.bodyLength := by
  cases hspends with
  | message n before body => exact absurd rfl (hresult body)
  | blank n rest | fault n hagain =>
    cases h with
    | blank m => exact blankLines_add m n ▸ .blank (m + n)
  | header n hlines hlength hlimit hshort =>
    cases h with
    | blank m =>
      rw [← List.append_assoc, ← blankLines_add]
      exact .header (m + n) hlines hlength (Nat.zero_lt_of_lt hshort) hlimit
  | nothing => rwa [List.append_nil]

theorem Spends.bodyLength_of_message {limit : Nat} {opening taken body : Bytes}
    {remembered : Option Nat} {r : Receiver}
    (h : Spends limit opening remembered taken (.ok (some body)) r) : r.bodyLength = none := by
  cases h
  rfl

/-- What was taken off before and what a look takes off make up its message. -/
theorem Messages.spends {limit : Nat} {bytes opening taken body : Bytes} {bodies : List Bytes}
    {remembered : Option Nat} {r : Receiver} (h : Messages limit bytes bodies opening)
    (hspends : Spends limit opening remembered taken (.ok (some body)) r) :
    Messages limit (bytes ++ taken) (bodies ++ [body]) [] := by
  cases hspends with
  | @message n _ lines before body rest hlines hlength hlimit hbefore =>
    have hfront : opening ++ (before ++ body) =
        blankLines n ++ (lines ++ lineEnd ++ (body ++ [])) := by
      rw [← List.append_assoc, hbefore, List.append_nil, List.append_assoc]
    have hmore := h.append (before ++ body)
    rw [hfront] at hmore
    exact hmore.snoc hlines hlength hlimit

/-! ### Looks at any buffers -/

/-- What is known between two looks: the length that is remembered, and what has been taken off
since the last message. -/
structure Between where
  remembered : Option Nat
  opening : Bytes

namespace Between

/-- The receiver that looks at a buffer next. -/
def receiver (limit : Nat) (b : Between) (buffer : Bytes) : Receiver :=
  ⟨limit, b.remembered, buffer⟩

/-- One look at a buffer. -/
def look (limit : Nat) (b : Between) (buffer : Bytes) : Between :=
  let r := b.receiver limit buffer
  match r.decode.1 with
  | .ok (some _) => ⟨r.decode.2.bodyLength, []⟩
  | _ => ⟨r.decode.2.bodyLength, b.opening ++ r.spent⟩

/-- Looks at one buffer after another, of which the first is the first of all. -/
def after (limit : Nat) (buffers : List Bytes) : Between := buffers.foldl (look limit) ⟨none, []⟩

variable {limit : Nat} {b : Between}

theorem spends (h : Opening limit b.opening b.remembered) (buffer : Bytes) :
    let r := b.receiver limit buffer
    buffer = r.spent ++ r.decode.2.buffer ∧
      Spends limit b.opening b.remembered r.spent r.decode.1 r.decode.2 :=
  Receiver.spends_of_opening (show Opening (b.receiver limit buffer).limit _ _ from h)

theorem opening_look (h : Opening limit b.opening b.remembered) (buffer : Bytes) :
    Opening limit (b.look limit buffer).opening (b.look limit buffer).remembered := by
  obtain ⟨-, hspends⟩ := spends h buffer
  rw [look]
  split <;> rename_i hresult
  · rw [hresult] at hspends
    exact hspends.bodyLength_of_message ▸ .blank 0
  · exact h.next hspends hresult

/-- Whatever the buffers were. -/
theorem opening_after (limit : Nat) (buffers : List Bytes) :
    Opening limit (after limit buffers).opening (after limit buffers).remembered := by
  induction buffers using List.reverseRecOn with
  | nil => exact .blank 0
  | append_singleton buffers buffer ih =>
    rw [after, List.foldl_append]
    exact opening_look ih buffer

end Between

/-! ### A stream in pieces -/

/-- What can happen to a receiver. -/
inductive Event where
  | feed (chunk : Bytes)
  | look

/-- A stream that is being received: what has come, what has been taken off it, and the messages
found. -/
structure Account where
  receiver : Receiver
  come : Bytes
  taken : Bytes
  bodies : List Bytes

namespace Account

/-- Nothing has come. -/
def new (limit : Nat) : Account := ⟨.new limit, [], [], []⟩

def step (a : Account) : Event → Account
  | .feed chunk => { a with receiver := a.receiver.feed chunk, come := a.come ++ chunk }
  | .look =>
    { a with
      receiver := a.receiver.decode.2
      taken := a.taken ++ a.receiver.spent
      bodies := match a.receiver.decode.1 with
        | .ok (some body) => a.bodies ++ [body]
        | _ => a.bodies }

/-- Everything that happens, from the start on. -/
def run (limit : Nat) (events : List Event) : Account := events.foldl step (new limit)

/-- What has come is what was taken off and what is left, and what was taken off is whole messages
and what stands before the next body. -/
structure Balanced (limit : Nat) (a : Account) : Prop where
  limit_eq : a.receiver.limit = limit
  come_eq : a.come = a.taken ++ a.receiver.buffer
  taken_messages : ∃ opening, Messages limit a.taken a.bodies opening ∧
    Opening limit opening a.receiver.bodyLength

variable {limit : Nat} {a : Account}

theorem balanced_new (limit : Nat) : (new limit).Balanced limit :=
  ⟨rfl, rfl, [], .nil [], .blank 0⟩

namespace Balanced

theorem feed (h : a.Balanced limit) (chunk : Bytes) : (a.step (.feed chunk)).Balanced limit := by
  refine ⟨h.limit_eq, ?_, h.taken_messages⟩
  show a.come ++ chunk = a.taken ++ (a.receiver.buffer ++ chunk)
  rw [h.come_eq, List.append_assoc]

theorem look (h : a.Balanced limit) : (a.step .look).Balanced limit := by
  obtain ⟨rfl, hcome, opening, hmessages, hopening⟩ := h
  obtain ⟨hbuffer, hspends⟩ := Receiver.spends_of_opening hopening
  refine ⟨Receiver.limit_of_decode rfl, ?_, ?_⟩
  · show a.come = a.taken ++ a.receiver.spent ++ a.receiver.decode.2.buffer
    rw [List.append_assoc, ← hbuffer, hcome]
  · rw [Account.step]
    dsimp only
    split <;> rename_i hresult
    · rw [hresult] at hspends
      exact ⟨[], hmessages.spends hspends, hspends.bodyLength_of_message ▸ .blank 0⟩
    · exact ⟨_, hmessages.append _, hopening.next hspends hresult⟩

theorem step (h : a.Balanced limit) : ∀ event, (a.step event).Balanced limit
  | .feed chunk => h.feed chunk
  | .look => h.look

end Balanced

/-- **Whatever happens, the account is balanced.** -/
theorem balanced_run (limit : Nat) (events : List Event) : (run limit events).Balanced limit := by
  induction events using List.reverseRecOn with
  | nil => exact balanced_new limit
  | append_singleton events event ih =>
    rw [run, List.foldl_append]
    exact ih.step event

end Account

/-! ### The end of looking -/

theorem Opening.isTidy {limit : Nat} {opening : Bytes} {remembered : Option Nat}
    (h : Opening limit opening remembered) (buffer : Bytes) :
    (⟨limit, remembered, buffer⟩ : Receiver).IsTidy := by
  cases h with
  | blank n => exact Receiver.isTidy_of_none rfl
  | header n hlines hlength hpos =>
    intro hzero
    exact Nat.ne_of_gt hpos (Option.some.inj hzero)

namespace Receiver

/-- There are no more messages than bytes. -/
theorem Takes.length_add_le {r r' : Receiver} {bodies : List Bytes} (h : r.Takes bodies r')
    (htidy : r.IsTidy) : bodies.length + r'.buffer.length ≤ r.buffer.length := by
  induction h with
  | nil => exact Nat.le_of_eq (Nat.zero_add _)
  | cons hdecode _ ih =>
    have hlt := length_lt_of_decode htidy hdecode
    have hle := ih (isTidy_decode hdecode)
    rw [List.length_cons]
    omega

end Receiver

/-- **The bytes of a stream are accounted for.** A receiver that is new, or has looked at any
buffers before, takes off the front of the next buffer blank lines, the header and the body of a
message, as far as they are there and earlier looks have not taken them; if there is a fault, blank
lines. So when a stream comes in pieces, what has come is at any time what has been taken off it and
what is left, and what has been taken off is the messages that were found, and what stands before
the next body. And looking until nothing is found comes to an end: there are no more messages than
bytes. -/
theorem bytes_are_accounted_for (limit : Nat) :
    (∀ buffers buffer,
      let b := Between.after limit buffers
      let r := b.receiver limit buffer
      buffer = r.spent ++ r.decode.2.buffer ∧
        Spends limit b.opening b.remembered r.spent r.decode.1 r.decode.2) ∧
    (∀ events,
      let a := Account.run limit events
      a.come = a.taken ++ a.receiver.buffer ∧
        ∃ opening, Messages limit a.taken a.bodies opening ∧
          Opening limit opening a.receiver.bodyLength) ∧
    ∀ buffers buffer,
      let r := (Between.after limit buffers).receiver limit buffer
      (∀ bodies r', r.Takes bodies r' → bodies.length ≤ buffer.length) ∧
        ∃ bodies r', r.Takes bodies r' ∧ ∀ body, r'.decode.1 ≠ .ok (some body) := by
  refine ⟨fun buffers buffer => ?_, fun events => ?_,
    fun buffers buffer => ⟨fun bodies r' htakes => ?_, ?_⟩⟩
  · exact Between.spends (Between.opening_after limit buffers) buffer
  · have hbalanced := Account.balanced_run limit events
    exact ⟨hbalanced.come_eq, hbalanced.taken_messages⟩
  · have htidy := (Between.opening_after limit buffers).isTidy buffer
    exact Nat.le_of_add_right_le (htakes.length_add_le htidy)
  · obtain ⟨bodies, r', htakes, ⟨e, _, hlast, -⟩ | ⟨_, hlast, -⟩⟩ := Receiver.exists_takes
      ((Between.after limit buffers).receiver limit buffer)
    · exact ⟨bodies, r', htakes, fun body => by rw [hlast]; exact nofun⟩
    · exact ⟨bodies, r', htakes, fun body => by rw [hlast]; exact nofun⟩

/-- A receiver whose last buffer ended behind a header. -/
theorem body_behind_last_buffer :
    let r := (Between.after 9 [Utf8.ofString "Content-Length: 2\r\n\r\n"]).receiver 9
      (Utf8.ofString "\x7b\x7dContent-Length: 0\r\n\r\n")
    let bodies := [Utf8.ofString "\x7b\x7d", []]
    r.Takes bodies (.new 9) ∧ bodies.length ≤ r.buffer.length := by
  intro r bodies
  have hfirst : r.decode = (.ok (some (Utf8.ofString "\x7b\x7d")),
      ⟨9, none, Utf8.ofString "Content-Length: 0\r\n\r\n"⟩) := by decide +kernel
  have hsecond : Receiver.decode ⟨9, none, Utf8.ofString "Content-Length: 0\r\n\r\n"⟩ =
      (.ok (some []), .new 9) := by decide +kernel
  have htakes : r.Takes bodies (.new 9) := .cons hfirst (.cons hsecond (.nil _))
  exact ⟨htakes, ((bytes_are_accounted_for 9).2.2 _ _).1 _ _ htakes⟩

end Frame

end PlatformProxy
