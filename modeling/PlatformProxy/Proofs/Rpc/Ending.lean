import PlatformProxy.Proofs.Frame.Chunks
import PlatformProxy.Proofs.Rpc.Serving

/-!
# Where a stream may end

When a stream ends, a receiver that still has bytes reports that the stream was cut off. It looks at
its bytes only, and not at the header it may have taken. A stream may therefore end in two places:
behind whole messages and blank lines, and right behind a header whose body has not begun. Nowhere
else is the end taken for a good one, be it in a blank line, in a header or in a body, and a
connection is closed at the end of such a stream only.

## Main definitions

* `Frame.Whole`, `Frame.EndsBehindHeader` — the two kinds of streams
* `Frame.Receiver.receiveAll` — a stream in chunks, with its end

## Main results

* `Frame.Receiver.drain_eq_whole_iff`, `Frame.Receiver.drain_eq_behind_iff` — a receiver tells them
  apart by the length it remembers
* `Rpc.Serving.ends_only_behind_messages_and_headers` — its reports, and those of a connection, do
  not
-/

namespace PlatformProxy

namespace Frame

/-- Whole messages and blank lines. -/
def Whole (limit : Nat) (bytes : Bytes) (bodies : List Bytes) : Prop :=
  ∃ n, Messages limit bytes bodies (blankLines n)

/-- Whole messages and one more header, which announces a body that is not empty. -/
def EndsBehindHeader (limit : Nat) (bytes : Bytes) (bodies : List Bytes) (length : Nat) : Prop :=
  0 < length ∧ length ≤ limit ∧ ∃ n lines, IsHeader lines ∧ announcedLength lines = .ok length ∧
    Messages limit bytes bodies (blankLines n ++ (lines ++ lineEnd))

namespace Receiver

variable {limit : Nat} {bytes : Bytes} {bodies : List Bytes}

/-- All of a stream that comes in chunks: its messages, and what its end is taken for. -/
def receiveAll (r : Receiver) (chunks : List Bytes) : List Bytes × Except Error (Option Bytes) :=
  match r.receive chunks with
  | (bodies, .error e) => (bodies, .error e)
  | (bodies, .ok r') => (bodies, r'.finish.1)

/-! ### A receiver that has nothing left -/

theorem finish_of_drain {r r' : Receiver} (h : r.drain = (bodies, .ok r')) :
    r'.finish.1 = if r'.buffer.isEmpty then .ok none else .error .truncated := by
  obtain ⟨bodies', last, -, ⟨e, _, _, hdrain⟩ | ⟨r'', hlast, hdrain⟩⟩ := exists_takes r
  · exact absurd (h.symm.trans hdrain) nofun
  · obtain ⟨-, hsame⟩ := Prod.mk.inj (h.symm.trans hdrain)
    obtain rfl := Except.ok.inj hsame
    rw [finish_of_none (decode_of_decode_none hlast)]

/-- A receiver has nothing left in two places. -/
theorem ends_of_drain {r : Receiver} (h : drain ⟨limit, none, bytes⟩ = (bodies, .ok r))
    (hempty : r.buffer = []) :
    (Whole limit bytes bodies ∧ r = ⟨limit, none, []⟩) ∨
      ∃ length, EndsBehindHeader limit bytes bodies length ∧ r = ⟨limit, some length, []⟩ := by
  obtain ⟨rest, hmessages, ⟨e, _, _, hresult⟩ | ⟨r', hfront, hresult⟩⟩ := drain_eq_iff.mp h
  · exact absurd hresult nofun
  · obtain rfl := Except.ok.inj hresult
    cases hfront with
    | @inBody n lines length part hlines hlength hlimit hpart =>
      obtain rfl : part = [] := hempty
      rw [List.append_nil] at hmessages
      exact .inr ⟨length, ⟨hpart, hlimit, n, lines, hlines, hlength, hmessages⟩, rfl⟩
    | @inHeader n part =>
      obtain rfl : part = [] := hempty
      rw [List.append_nil] at hmessages
      exact .inl ⟨⟨n, hmessages⟩, rfl⟩

theorem drain_eq_whole_iff :
    drain ⟨limit, none, bytes⟩ = (bodies, .ok ⟨limit, none, []⟩) ↔ Whole limit bytes bodies := by
  constructor
  · intro h
    obtain ⟨hwhole, -⟩ | ⟨length, -, hr⟩ := ends_of_drain h rfl
    · exact hwhole
    · exact absurd (congrArg bodyLength hr) nofun
  · rintro ⟨n, hmessages⟩
    exact drain_eq_iff.mpr ⟨_, hmessages, .inr ⟨_, .of_blankLines limit n, rfl⟩⟩

theorem drain_eq_behind_iff {length : Nat} :
    drain ⟨limit, none, bytes⟩ = (bodies, .ok ⟨limit, some length, []⟩) ↔
      EndsBehindHeader limit bytes bodies length := by
  constructor
  · intro h
    obtain ⟨-, hr⟩ | ⟨length', hends, hr⟩ := ends_of_drain h rfl
    · exact absurd (congrArg bodyLength hr) nofun
    · obtain rfl := Option.some.inj (congrArg bodyLength hr)
      exact hends
  · rintro ⟨hpos, hlimit, n, lines, hlines, hlength, hmessages⟩
    refine drain_eq_iff.mpr ⟨_, hmessages, .inr ⟨_, ?_, rfl⟩⟩
    rw [← List.append_nil (lines ++ lineEnd)]
    exact .inBody n [] hlines hlength hlimit hpos

/-- No stream ends in both places. -/
theorem not_whole_of_endsBehindHeader {length : Nat}
    (h : EndsBehindHeader limit bytes bodies length) (bodies' : List Bytes) :
    ¬ Whole limit bytes bodies' := by
  intro hwhole
  have hsame := (drain_eq_behind_iff.mpr h).symm.trans (drain_eq_whole_iff.mpr hwhole)
  exact absurd (Except.ok.inj (Prod.mk.inj hsame).2) nofun

/-! ### The end of a stream -/

/-- What the end of a stream is taken for depends on the bytes that are left. -/
theorem receiveAll_eq {chunks : List Bytes} (hshort : ShortHeaders limit chunks.flatten) :
    (new limit).receiveAll chunks =
      match drain ⟨limit, none, chunks.flatten⟩ with
      | (bodies, .error e) => (bodies, .error e)
      | (bodies, .ok r) => (bodies, if r.buffer.isEmpty then .ok none else .error .truncated) := by
  rw [receiveAll, receive_eq_drain hshort]
  match hdrain : drain ⟨limit, none, chunks.flatten⟩ with
  | (bodies, .error e) => rfl
  | (bodies, .ok r) =>
    dsimp only
    rw [finish_of_drain hdrain]

theorem receiveAll_cases {chunks : List Bytes} (hshort : ShortHeaders limit chunks.flatten) :
    (∃ e, ((new limit).receiveAll chunks).2 = .error e) ∨
      ((new limit).receiveAll chunks).2 = .ok none := by
  rw [receiveAll_eq hshort]
  match drain ⟨limit, none, chunks.flatten⟩ with
  | (_, .error e) => exact .inl ⟨e, rfl⟩
  | (_, .ok r) =>
    dsimp only
    split
    · exact .inr rfl
    · exact .inl ⟨.truncated, rfl⟩

theorem receiveAll_eq_iff {chunks : List Bytes} (hshort : ShortHeaders limit chunks.flatten) :
    (new limit).receiveAll chunks = (bodies, .ok none) ↔
      Whole limit chunks.flatten bodies ∨
        ∃ length, EndsBehindHeader limit chunks.flatten bodies length := by
  rw [receiveAll_eq hshort]
  constructor
  · intro h
    match hdrain : drain ⟨limit, none, chunks.flatten⟩ with
    | (bodies', .error e) =>
      rw [hdrain] at h
      exact absurd (Prod.mk.inj h).2 nofun
    | (bodies', .ok r) =>
      rw [hdrain] at h
      obtain ⟨rfl, hresult⟩ := Prod.mk.inj h
      split at hresult
      · rename_i hempty
        obtain ⟨hwhole, -⟩ | ⟨length, hends, -⟩ :=
          ends_of_drain hdrain (List.isEmpty_iff.mp hempty)
        · exact .inl hwhole
        · exact .inr ⟨length, hends⟩
      · exact absurd hresult nofun
  · rintro (hwhole | ⟨length, hends⟩)
    · rw [drain_eq_whole_iff.mpr hwhole]
      rfl
    · rw [drain_eq_behind_iff.mpr hends]
      rfl

end Receiver

end Frame

namespace Rpc

namespace Serving

open PlatformProxy.Frame

/-- A connection is closed where its input ends like a stream. -/
theorem Reads.ends_of_closed {limit : Nat} {s : Serving} (hreads : s.Reads limit)
    (h : s.connection.phase = .closed) :
    Whole limit s.input s.messages ∨
      ∃ length, EndsBehindHeader limit s.input s.messages length := by
  obtain ⟨r, htakes, -, hdone⟩ := hreads.taken
  obtain ⟨-, r', hdecode, hempty⟩ := hdone (.inr h)
  have hdrain := Receiver.drain_of_takes htakes
  rw [Receiver.drain_of_none hdecode, List.append_nil] at hdrain
  obtain ⟨hwhole, -⟩ | ⟨length, hends, -⟩ := Receiver.ends_of_drain hdrain hempty
  · exact .inl hwhole
  · exact .inr ⟨length, hends⟩

/-- **The end of a stream is taken for a good one behind whole messages, and behind a header.** If
no header of a stream is long, its end is reported as an error, unless the stream is one of whole
messages and blank lines, or one that ends right behind a header that announces a body. The
messages that have been taken are then those of the stream, and no stream is of both kinds. A
connection is not closed at the end of any other input, whatever its headers are. -/
theorem ends_only_behind_messages_and_headers {limit : Nat} {chunks : List Bytes}
    (hshort : ShortHeaders limit chunks.flatten) :
    ((∃ e, ((Receiver.new limit).receiveAll chunks).2 = .error e) ∨
      ((Receiver.new limit).receiveAll chunks).2 = .ok none) ∧
    (∀ bodies, (Receiver.new limit).receiveAll chunks = (bodies, .ok none) ↔
      Whole limit chunks.flatten bodies ∨
        ∃ length, EndsBehindHeader limit chunks.flatten bodies length) ∧
    (∀ bodies length, EndsBehindHeader limit chunks.flatten bodies length →
      ∀ bodies', ¬ Whole limit chunks.flatten bodies') ∧
    ∀ (answers : Answers) (es : List Event),
      let s := (new limit).run answers es
      s.connection.phase = .closed →
      Whole limit s.input s.messages ∨
        ∃ length, EndsBehindHeader limit s.input s.messages length := by
  refine ⟨Receiver.receiveAll_cases hshort, fun _ => Receiver.receiveAll_eq_iff hshort,
    fun _ _ => Receiver.not_whole_of_endsBehindHeader, fun answers es => ?_⟩
  have hsound := sound_run (reads_new limit) ⟨[], writes_new limit answers⟩ es
  exact hsound.1.ends_of_closed

/-- A stream that ends within a body is not whole, as its end is an error. -/
theorem not_whole_of_short_body :
    let chunks := ["Content-Length: 2\r\n", "\r\nab\r\n", "Content-Length: 2\r\n\r\na"].map
      Utf8.ofString
    ShortHeaders 9 chunks.flatten ∧
      (Receiver.new 9).receiveAll chunks = ([Utf8.ofString "ab"], .error .truncated) ∧
      ∀ bodies, ¬ Whole 9 chunks.flatten bodies := by
  intro chunks
  have hshort : ShortHeaders 9 chunks.flatten := shortHeaders_of_length (by decide +kernel)
  have herror : (Receiver.new 9).receiveAll chunks = ([Utf8.ofString "ab"], .error .truncated) := by
    decide +kernel
  refine ⟨hshort, herror, fun bodies hwhole => ?_⟩
  have hclean := ((ends_only_behind_messages_and_headers hshort).2.1 bodies).mpr (.inl hwhole)
  exact absurd (herror.symm.trans hclean) nofun

/-- A stream that ends where a body should begin is taken for a whole one: its end is no error, and
its connection is closed. -/
theorem end_behind_header_is_clean :
    let stream := Utf8.ofString "Content-Length: 5\r\n\r\n"
    let s := (new 100).run (fun _ _ => .error .closed) [.arrive stream, .look, .peerDone, .look]
    ShortHeaders 100 [stream].flatten ∧
      (Receiver.new 100).receiveAll [stream] = ([], .ok none) ∧
      s.input = stream ∧ s.connection.phase = .closed ∧ ∀ bodies, ¬ Whole 100 stream bodies := by
  intro stream s
  have hdrain : Receiver.drain ⟨100, none, stream⟩ = ([], .ok ⟨100, some 5, []⟩) := by
    decide +kernel
  refine ⟨shortHeaders_of_length (by decide +kernel), by decide +kernel, by decide +kernel,
    by decide +kernel, ?_⟩
  exact Receiver.not_whole_of_endsBehindHeader (Receiver.drain_eq_behind_iff.mp hdrain)

end Serving

end Rpc

end PlatformProxy
