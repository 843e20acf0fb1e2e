import PlatformProxy.Proofs.Frame.Layout

/-!
# Streams in chunks

A stream arrives in chunks, and after each of them a receiver takes the messages that have become
whole, up to the first fault. How the stream was cut must not show. What stands in the way is the
limit on headers, which is only looked at while the end of a header has not arrived: a long header
is a fault or none depending on how much of it comes at once. A stream in chunks is received as if
it came at once, unless a header was cut behind more of it than the limit; and where no header is
longer than the limit, none can be.

The proof takes the chunks from the last to the first. All but the last are received as their bytes
at once would be, and what is missing is one cut: more bytes change neither the messages that have
been taken nor a fault, but for a header that was too long and is whole now, and a receiver that
waits goes on from what it has kept.

## Main definitions

* `Frame.Receiver.drain` — take the messages that are there
* `Frame.Receiver.receive` — the same for a stream in chunks
* `Frame.ShortHeaders` — no header of a stream is longer than the limit
* `Frame.CutLate` — a stream is cut within a header, behind more of it than the limit

## Main results

* `Frame.Receiver.drain_eq_iff` — what is taken, in terms of the stream
* `Frame.Receiver.receive_cases` — chunks are received as if they came at once, or a header that
  was cut late is refused
* `Frame.Receiver.receive_eq_drain` — chunks are received as if they came at once
* `Frame.Receiver.cutting_does_not_matter` — two ways to cut a stream
-/

namespace PlatformProxy

namespace Frame

/-- No header of a stream is longer than the limit, with the blank line that ends it. Headers
begin where a message ends, and behind blank lines. -/
def ShortHeaders (limit : Nat) (bytes : Bytes) : Prop :=
  ∀ ⦃bodies : List Bytes⦄ ⦃n : Nat⦄ ⦃lines rest : Bytes⦄,
    Messages limit bytes bodies (blankLines n ++ (lines ++ lineEnd ++ rest)) → IsHeader lines →
      (lines ++ lineEnd).length ≤ headerLimit

/-- A header of a stream. What stands before it are whole messages and blank lines, and `rest`
stands behind it. -/
structure HeaderAt (limit : Nat) (stream : Bytes) (bodies : List Bytes) (lines rest : Bytes) :
    Prop where
  isHeader : IsHeader lines
  behind : ∃ n, Messages limit stream bodies (blankLines n ++ (lines ++ lineEnd ++ rest))

/-- More bytes of a header than the limit have come and its end has not. What is to come is the
remainder of the header and what stands behind it. -/
def Overdue (lines rest toCome : Bytes) : Prop :=
  ∃ part missing, lines ++ lineEnd = part ++ missing ∧ toCome = missing ++ rest ∧
    headerLimit < part.length ∧ missing ≠ []

/-- A stream in chunks is cut within a header, so late that the header is overdue there. -/
def CutLate (chunks : List Bytes) (lines rest : Bytes) : Prop :=
  ∃ first last, chunks = first ++ last ∧ Overdue lines rest last.flatten

namespace Messages

variable {limit : Nat} {bytes rest : Bytes} {bodies : List Bytes}

theorem suffix (h : Messages limit bytes bodies rest) : rest <:+ bytes := by
  induction h with
  | nil rest => exact List.suffix_rfl
  | cons n _ _ _ _ ih =>
    refine ih.trans ?_
    rw [← List.append_assoc, ← List.append_assoc]
    exact List.suffix_append _ _

/-- More bytes only make what is left longer. -/
theorem append (h : Messages limit bytes bodies rest) (more : Bytes) :
    Messages limit (bytes ++ more) bodies (rest ++ more) := by
  induction h with
  | nil rest => exact .nil _
  | @cons n lines body bytes rest bodies hlines hlength hlimit _ ih =>
    simpa only [List.append_assoc] using Messages.cons n hlines hlength hlimit ih

end Messages

namespace HeaderAt

variable {limit : Nat} {stream lines rest : Bytes} {bodies : List Bytes}

theorem append (h : HeaderAt limit stream bodies lines rest) (more : Bytes) :
    HeaderAt limit (stream ++ more) bodies lines (rest ++ more) := by
  obtain ⟨hlines, n, hmessages⟩ := h
  refine ⟨hlines, n, ?_⟩
  simpa only [List.append_assoc] using hmessages.append more

theorem length_le (h : HeaderAt limit stream bodies lines rest)
    (hshort : ShortHeaders limit stream) : (lines ++ lineEnd).length ≤ headerLimit := by
  obtain ⟨hlines, n, hmessages⟩ := h
  exact hshort hmessages hlines

end HeaderAt

/-! ### Cuts within a header -/

theorem Overdue.append {lines rest toCome : Bytes} (h : Overdue lines rest toCome) (more : Bytes) :
    Overdue lines (rest ++ more) (toCome ++ more) := by
  obtain ⟨part, missing, hheader, rfl, hlong, hopen⟩ := h
  exact ⟨part, missing, hheader, List.append_assoc _ _ _, hlong, hopen⟩

/-- At the last place where a header can be cut, all but one byte of it has come. -/
theorem Overdue.lt_length {lines rest toCome : Bytes} (h : Overdue lines rest toCome) :
    headerLimit + 1 < (lines ++ lineEnd).length := by
  obtain ⟨part, missing, hheader, -, hlong, hopen⟩ := h
  have hpos := List.length_pos_of_ne_nil hopen
  rw [hheader, List.length_append]
  omega

theorem CutLate.concat {chunks : List Bytes} {lines rest : Bytes} (h : CutLate chunks lines rest)
    (chunk : Bytes) : CutLate (chunks ++ [chunk]) lines (rest ++ chunk) := by
  obtain ⟨first, last, rfl, hoverdue⟩ := h
  refine ⟨first, last ++ [chunk], List.append_assoc _ _ _, ?_⟩
  rw [List.flatten_append, List.flatten_singleton]
  exact hoverdue.append chunk

theorem CutLate.lt_length {chunks : List Bytes} {lines rest : Bytes}
    (h : CutLate chunks lines rest) : headerLimit + 1 < (lines ++ lineEnd).length := by
  obtain ⟨_, _, -, hoverdue⟩ := h
  exact hoverdue.lt_length

/-! ### Headers that are not long -/

theorem shortHeaders_of_length {limit : Nat} {bytes : Bytes} (h : bytes.length ≤ headerLimit) :
    ShortHeaders limit bytes := by
  intro bodies n lines rest hmessages _
  have hlength := hmessages.suffix.length_le
  simp only [List.length_append] at hlength ⊢
  omega

/-- Blank lines have no headers. -/
theorem shortHeaders_blankLines (limit n : Nat) : ShortHeaders limit (blankLines n) := by
  have hnone : ∀ {k : Nat} {lines rest : Bytes}, IsHeader lines →
      blankLines n ≠ blankLines k ++ (lines ++ lineEnd ++ rest) := by
    intro k lines rest hlines h
    have hdrop := hlines.dropBlankLines_eq k rest
    rw [← h, ← List.append_nil (blankLines n), dropBlankLines_blankLines_append] at hdrop
    simp [dropBlankLines, lineEnd] at hdrop
  intro bodies k lines rest hmessages hlines
  generalize hbytes : blankLines n = bytes at hmessages
  cases hmessages with
  | nil => exact absurd hbytes (hnone hlines)
  | cons _ hlines' _ _ _ => exact absurd hbytes (hnone hlines')

/-- A message whose header is not long, before a stream whose headers are not long. -/
theorem ShortHeaders.cons {limit : Nat} {lines body bytes : Bytes} (n : Nat)
    (hlines : IsHeader lines) (hlength : announcedLength lines = .ok body.length)
    (hle : (lines ++ lineEnd).length ≤ headerLimit) (h : ShortHeaders limit bytes) :
    ShortHeaders limit (blankLines n ++ (lines ++ lineEnd ++ (body ++ bytes))) := by
  intro bodies k lines' rest hmessages hlines'
  generalize hstream : blankLines n ++ (lines ++ lineEnd ++ (body ++ bytes)) = stream at hmessages
  cases hmessages with
  | nil =>
    obtain ⟨rfl, -⟩ := hlines.unique hlines' hstream
    exact hle
  | cons m hfirst hannounced _ hmore =>
    obtain ⟨rfl, hrest⟩ := hlines.unique hfirst hstream
    obtain ⟨-, rfl⟩ := List.append_inj hrest (Except.ok.inj (hlength.symm.trans hannounced))
    exact h hmore hlines'

/-! ### Faults before more bytes -/

/-- With more bytes a fault at the front of a stream is the same fault, or it was a header that has
become whole. -/
theorem Front.error_append {limit : Nat} {front : Bytes} {e : Error} {r : Receiver}
    (h : Front limit front (.error e) r) (more : Bytes) :
    (∃ r', Front limit (front ++ more) (.error e) r') ∨
      e = .longHeader headerLimit ∧ ∃ n lines rest, IsHeader lines ∧ Overdue lines rest more ∧
        front ++ more = blankLines n ++ (lines ++ lineEnd ++ rest) := by
  cases h with
  | @longHeader n part hblank hopen hlong =>
    have htwo : lineEnd.length ≤ part.length := Nat.le_trans (by decide) (Nat.le_of_lt hlong)
    have hblank' : ¬ lineEnd <+: part ++ more := fun hprefix =>
      hblank (List.prefix_of_prefix_length_le hprefix (List.prefix_append part more) htwo)
    rw [List.append_assoc]
    by_cases hopen' : terminator <:+: part ++ more
    · obtain ⟨stop, hstop⟩ := Option.ne_none_iff_exists'.mp fun hnone =>
        findTerminator_eq_none_iff.mp hnone hopen'
      obtain ⟨lines, rest, hbytes, -, hlines⟩ := exists_isHeader hstop hblank'
      -- The whole header was not there before.
      have hnot : ¬ lines ++ lineEnd <+: part := fun hwhole =>
        hopen (hlines.terminator_suffix.isInfix.trans hwhole.isInfix)
      obtain ⟨missing, hmissing⟩ := (List.prefix_or_prefix_of_prefix ⟨more, rfl⟩
        (⟨rest, hbytes.symm⟩ : lines ++ lineEnd <+: part ++ more)).resolve_right hnot
      refine .inr ⟨rfl, n, lines, rest, hlines, ⟨part, missing, hmissing.symm, ?_, hlong, ?_⟩,
        by rw [hbytes]⟩
      · rw [← hmissing, List.append_assoc] at hbytes
        exact List.append_cancel_left hbytes
      · rintro rfl
        rw [List.append_nil] at hmissing
        exact hnot (hmissing ▸ List.prefix_refl part)
    · refine .inl ⟨_, .longHeader n hblank' hopen' ?_⟩
      rw [List.length_append]
      omega
  | badHeader n rest hlines hlength =>
    rw [List.append_assoc, List.append_assoc]
    exact .inl ⟨_, .badHeader n (rest ++ more) hlines hlength⟩
  | longBody n rest hlines hlength hlimit =>
    rw [List.append_assoc, List.append_assoc]
    exact .inl ⟨_, .longBody n (rest ++ more) hlines hlength hlimit⟩

namespace Receiver

/-! ### Taking what is there -/

/-- What a receiver has left to take: every byte counts, and so does a header that has been taken,
as its body may be empty. -/
def weight (r : Receiver) : Nat := r.buffer.length + if r.bodyLength.isSome then 1 else 0

theorem weight_lt_of_decode {r r' : Receiver} {body : Bytes}
    (h : r.decode = (.ok (some body), r')) : r'.weight < r.weight := by
  obtain ⟨limit, bodyLength, buffer⟩ := r
  cases bodyLength with
  | some length =>
    rw [decode] at h
    dsimp only at h
    rw [takeBody] at h
    split at h
    · simp at h
    · obtain ⟨-, rfl⟩ := Prod.mk.inj h
      show (buffer.drop length).length + 0 < buffer.length + 1
      rw [List.length_drop]
      omega
  | none =>
    cases decode_eq_iff_front.mp h with
    | message n body rest hlines _ _ =>
      have hlength := hlines.length_ge
      simp [weight]
      omega

/-- A receiver remembers the length of a body only if the body is not empty. -/
def IsTidy (r : Receiver) : Prop := r.bodyLength ≠ some 0

theorem isTidy_of_none {r : Receiver} (h : r.bodyLength = none) : r.IsTidy := by
  rw [IsTidy, h]
  exact (Option.some_ne_none 0).symm

theorem isTidy_takeBody {r : Receiver} {length : Nat} {result : Except Error (Option Bytes)}
    {r' : Receiver} (h : r.takeBody length = (result, r')) : r'.IsTidy := by
  rw [takeBody] at h
  split at h <;> rename_i hlength
  · obtain ⟨-, rfl⟩ := Prod.mk.inj h
    intro hzero
    obtain rfl := Option.some.inj hzero
    exact Nat.not_lt_zero _ hlength
  · obtain ⟨-, rfl⟩ := Prod.mk.inj h
    exact isTidy_of_none rfl

theorem isTidy_decode {r r' : Receiver} {result : Except Error (Option Bytes)}
    (h : r.decode = (result, r')) : r'.IsTidy := by
  obtain ⟨limit, bodyLength, buffer⟩ := r
  cases bodyLength with
  | some length => exact isTidy_takeBody h
  | none =>
    rw [decode] at h
    dsimp only at h
    rw [takeHeader] at h
    split at h
    · split at h <;> obtain ⟨-, rfl⟩ := Prod.mk.inj h <;> exact isTidy_of_none rfl
    · split at h
      · obtain ⟨-, rfl⟩ := Prod.mk.inj h
        exact isTidy_of_none rfl
      · split at h
        · obtain ⟨-, rfl⟩ := Prod.mk.inj h
          exact isTidy_of_none rfl
        · exact isTidy_takeBody h

/-- Every message takes at least one byte. -/
theorem length_lt_of_decode {r r' : Receiver} {body : Bytes} (htidy : r.IsTidy)
    (h : r.decode = (.ok (some body), r')) : r'.buffer.length < r.buffer.length := by
  obtain ⟨limit, bodyLength, buffer⟩ := r
  cases bodyLength with
  | none =>
    have hweight := weight_lt_of_decode h
    have hle : r'.buffer.length ≤ r'.weight := Nat.le_add_right _ _
    exact Nat.lt_of_le_of_lt hle hweight
  | some length =>
    rw [decode] at h
    dsimp only at h
    rw [takeBody] at h
    split at h <;> rename_i hlength
    · exact absurd h (by simp)
    · obtain ⟨-, rfl⟩ := Prod.mk.inj h
      have hpos : length ≠ 0 := by
        rintro rfl
        exact htidy rfl
      show (buffer.drop length).length < buffer.length
      rw [List.length_drop]
      dsimp only at hlength
      omega

/-- Looking in vain adds no bytes. -/
theorem length_le_of_decode_none {r r' : Receiver} (h : r.decode = (.ok none, r')) :
    r'.buffer.length ≤ r.buffer.length := by
  obtain ⟨limit, bodyLength, buffer⟩ := r
  cases bodyLength with
  | some length => rw [takeBody_eq_none h]
  | none =>
    cases decode_eq_iff_front.mp h with
    | inBody n part _ _ _ _ =>
      exact (List.suffix_append_of_suffix (List.suffix_append _ _)).length_le
    | inHeader n _ _ _ => exact (List.suffix_append _ _).length_le

/-- Take the messages that are there, up to the first fault. -/
def drain (r : Receiver) : List Bytes × Except Error Receiver :=
  match _h : r.decode with
  | (.error e, _) => ([], .error e)
  | (.ok none, r') => ([], .ok r')
  | (.ok (some body), r') => (body :: r'.drain.1, r'.drain.2)
termination_by r.weight
decreasing_by all_goals exact weight_lt_of_decode _h

/-- A stream arrives in chunks, and after each of them the messages that are there are taken. -/
def receive (r : Receiver) : List Bytes → List Bytes × Except Error Receiver
  | [] => ([], .ok r)
  | chunk :: chunks =>
    match (r.feed chunk).drain with
    | (bodies, .error e) => (bodies, .error e)
    | (bodies, .ok r') => (bodies ++ (receive r' chunks).1, (receive r' chunks).2)

theorem drain_of_error {r r' : Receiver} {e : Error} (h : r.decode = (.error e, r')) :
    r.drain = ([], .error e) := by
  rw [drain]
  split <;> rename_i h' <;> rw [h] at h' <;> cases h'
  rfl

theorem drain_of_none {r r' : Receiver} (h : r.decode = (.ok none, r')) :
    r.drain = ([], .ok r') := by
  rw [drain]
  split <;> rename_i h' <;> rw [h] at h' <;> cases h'
  rfl

theorem drain_of_some {r r' : Receiver} {body : Bytes} (h : r.decode = (.ok (some body), r')) :
    r.drain = (body :: r'.drain.1, r'.drain.2) := by
  rw [drain]
  split <;> rename_i h' <;> rw [h] at h' <;> cases h'
  rfl

theorem drain_congr {r r' : Receiver} (h : r.decode = r'.decode) : r.drain = r'.drain := by
  match hdecode : r'.decode with
  | (.error e, _) => rw [drain_of_error hdecode, drain_of_error (h.trans hdecode)]
  | (.ok none, _) => rw [drain_of_none hdecode, drain_of_none (h.trans hdecode)]
  | (.ok (some _), _) => rw [drain_of_some hdecode, drain_of_some (h.trans hdecode)]

theorem drain_of_takes {r r' : Receiver} {bodies : List Bytes} (h : r.Takes bodies r') :
    r.drain = (bodies ++ r'.drain.1, r'.drain.2) := by
  induction h with
  | nil => rfl
  | cons hdecode _ ih => rw [drain_of_some hdecode, ih, List.cons_append]

/-- Where a receiver stops: it has taken messages, and then waits or finds a fault. -/
theorem exists_takes (r : Receiver) :
    ∃ bodies last, r.Takes bodies last ∧
      ((∃ e r', last.decode = (.error e, r') ∧ r.drain = (bodies, .error e)) ∨
        ∃ r', last.decode = (.ok none, r') ∧ r.drain = (bodies, .ok r')) := by
  induction hweight : r.weight using Nat.strongRecOn generalizing r with
  | ind w ih =>
    match hdecode : r.decode with
    | (.error e, r') => exact ⟨[], r, .nil r, .inl ⟨e, r', hdecode, drain_of_error hdecode⟩⟩
    | (.ok none, r') => exact ⟨[], r, .nil r, .inr ⟨r', hdecode, drain_of_none hdecode⟩⟩
    | (.ok (some body), r') =>
      obtain ⟨bodies, last, htakes, hlast⟩ :=
        ih r'.weight (hweight ▸ weight_lt_of_decode hdecode) r' rfl
      refine ⟨body :: bodies, last, .cons hdecode htakes, ?_⟩
      rw [drain_of_some hdecode]
      rcases hlast with ⟨e, r'', hlast, hdrain⟩ | ⟨r'', hlast, hdrain⟩
      · exact .inl ⟨e, r'', hlast, by rw [hdrain]⟩
      · exact .inr ⟨r'', hlast, by rw [hdrain]⟩

/-- More bytes only add messages. -/
theorem prefix_drain_feed (r : Receiver) (more : Bytes) : r.drain.1 <+: (r.feed more).drain.1 := by
  obtain ⟨bodies, last, htakes, hlast⟩ := exists_takes r
  have hbodies : r.drain.1 = bodies := by
    rcases hlast with ⟨_, _, _, hdrain⟩ | ⟨_, _, hdrain⟩ <;> rw [hdrain]
  rw [hbodies, drain_of_takes (htakes.feed more)]
  exact List.prefix_append _ _

/-- **What is taken of a stream**: its whole messages, up to where something stands that is none. -/
theorem drain_eq_iff {limit : Nat} {bytes : Bytes} {bodies : List Bytes}
    {result : Except Error Receiver} :
    drain ⟨limit, none, bytes⟩ = (bodies, result) ↔
      ∃ rest, Messages limit bytes bodies rest ∧
        ((∃ e r, Front limit rest (.error e) r ∧ result = .error e) ∨
          ∃ r, Front limit rest (.ok none) r ∧ result = .ok r) := by
  constructor
  · intro h
    obtain ⟨bodies', last, htakes, hlast⟩ := exists_takes ⟨limit, none, bytes⟩
    obtain ⟨rest, hmessages, rfl⟩ := takes_iff_messages.mp htakes
    simp only [h, decode_eq_iff_front] at hlast
    rcases hlast with ⟨e, r, hfront, hresult⟩ | ⟨r, hfront, hresult⟩
    · obtain ⟨rfl, rfl⟩ := Prod.mk.inj hresult
      exact ⟨rest, hmessages, .inl ⟨e, r, hfront, rfl⟩⟩
    · obtain ⟨rfl, rfl⟩ := Prod.mk.inj hresult
      exact ⟨rest, hmessages, .inr ⟨r, hfront, rfl⟩⟩
  · rintro ⟨rest, hmessages, ⟨e, r, hfront, rfl⟩ | ⟨r, hfront, rfl⟩⟩
    · rw [drain_of_takes (takes_iff_messages.mpr ⟨rest, hmessages, rfl⟩),
        drain_of_error (decode_of_front hfront), List.append_nil]
    · rw [drain_of_takes (takes_iff_messages.mpr ⟨rest, hmessages, rfl⟩),
        drain_of_none (decode_of_front hfront), List.append_nil]

/-! ### One cut -/

/-- A receiver that waits goes on from what it has kept. -/
theorem drain_feed_of_ok {r r' : Receiver} {bodies : List Bytes} (h : r.drain = (bodies, .ok r'))
    (more : Bytes) :
    (r.feed more).drain = (bodies ++ (r'.feed more).drain.1, (r'.feed more).drain.2) := by
  obtain ⟨bodies', last, htakes, ⟨e, _, _, hdrain⟩ | ⟨r'', hlast, hdrain⟩⟩ := exists_takes r
  · exact absurd (h.symm.trans hdrain) nofun
  · obtain ⟨rfl, hsame⟩ := Prod.mk.inj (h.symm.trans hdrain)
    obtain rfl := Except.ok.inj hsame
    rw [drain_of_takes (htakes.feed more), drain_congr (decode_feed_of_none hlast more)]

/-- A fault stays a fault, unless it was a header that has become whole. -/
theorem drain_append_cases {limit : Nat} {bytes : Bytes} {bodies : List Bytes} {e : Error}
    (h : drain ⟨limit, none, bytes⟩ = (bodies, .error e)) (more : Bytes) :
    drain ⟨limit, none, bytes ++ more⟩ = (bodies, .error e) ∨
      e = .longHeader headerLimit ∧ ∃ lines rest,
        HeaderAt limit (bytes ++ more) bodies lines rest ∧ Overdue lines rest more := by
  obtain ⟨rest, hmessages, ⟨e', r, hfront, hresult⟩ | ⟨r, _, hresult⟩⟩ := drain_eq_iff.mp h
  · obtain rfl := Except.error.inj hresult
    have hmore := hmessages.append more
    obtain ⟨r', hfront'⟩ | ⟨he, n, lines, rest', hlines, hoverdue, hbytes⟩ :=
      hfront.error_append more
    · exact .inl (drain_eq_iff.mpr ⟨rest ++ more, hmore, .inl ⟨e, r', hfront', rfl⟩⟩)
    · rw [hbytes] at hmore
      exact .inr ⟨he, lines, rest', ⟨hlines, n, hmore⟩, hoverdue⟩
  · exact absurd hresult nofun

/-- Without long headers a fault stays a fault. -/
theorem drain_append_of_error {limit : Nat} {bytes more : Bytes} {bodies : List Bytes} {e : Error}
    (hshort : ShortHeaders limit (bytes ++ more))
    (h : drain ⟨limit, none, bytes⟩ = (bodies, .error e)) :
    drain ⟨limit, none, bytes ++ more⟩ = (bodies, .error e) := by
  obtain hsame | ⟨-, lines, rest, hheader, hoverdue⟩ := drain_append_cases h more
  · exact hsame
  · exact absurd (hheader.length_le hshort) (Nat.not_le.mpr (Nat.lt_of_succ_lt hoverdue.lt_length))

/-! ### Any cuts -/

theorem receive_concat (r : Receiver) (chunks : List Bytes) (chunk : Bytes) :
    r.receive (chunks ++ [chunk]) =
      match r.receive chunks with
      | (bodies, .error e) => (bodies, .error e)
      | (bodies, .ok r') => (bodies ++ (r'.feed chunk).drain.1, (r'.feed chunk).drain.2) := by
  induction chunks generalizing r with
  | nil =>
    rw [List.nil_append, receive, receive]
    dsimp only
    match (r.feed chunk).drain with
    | (bodies, .error e) => rfl
    | (bodies, .ok r') => simp [receive]
  | cons first chunks ih =>
    rw [List.cons_append, receive, receive]
    match (r.feed first).drain with
    | (bodies, .error e) => rfl
    | (bodies, .ok r') =>
      dsimp only
      rw [ih]
      match r'.receive chunks with
      | (bodies', .error e) => rfl
      | (bodies', .ok r'') => simp

/-- **Chunks are received as if they came at once**, or a header is refused that was cut late. -/
theorem receive_cases (limit : Nat) (chunks : List Bytes) :
    (new limit).receive chunks = drain ⟨limit, none, chunks.flatten⟩ ∨
      ∃ bodies lines rest, HeaderAt limit chunks.flatten bodies lines rest ∧
        CutLate chunks lines rest ∧
        (new limit).receive chunks = (bodies, .error (.longHeader headerLimit)) := by
  induction chunks using List.reverseRecOn with
  | nil => exact .inl (drain_of_none rfl).symm
  | append_singleton chunks chunk ih =>
    rw [receive_concat, List.flatten_append, List.flatten_singleton]
    obtain hsame | ⟨bodies, lines, rest, hheader, hcut, hrefused⟩ := ih
    · rw [hsame]
      match hdrain : drain ⟨limit, none, chunks.flatten⟩ with
      | (bodies, .ok r') => exact .inl (drain_feed_of_ok hdrain chunk).symm
      | (bodies, .error e) =>
        obtain hmore | ⟨rfl, lines, rest, hheader, hoverdue⟩ := drain_append_cases hdrain chunk
        · exact .inl hmore.symm
        · exact .inr ⟨bodies, lines, rest, hheader,
            ⟨chunks, [chunk], rfl, by rwa [List.flatten_singleton]⟩, rfl⟩
    · rw [hrefused]
      exact .inr ⟨bodies, lines, rest ++ chunk, hheader.append chunk, hcut.concat chunk, rfl⟩

/-- **Chunks are received as if they came at once**, if no header is long. -/
theorem receive_eq_drain {limit : Nat} {chunks : List Bytes}
    (hshort : ShortHeaders limit chunks.flatten) :
    (new limit).receive chunks = drain ⟨limit, none, chunks.flatten⟩ := by
  obtain hsame | ⟨bodies, lines, rest, hheader, hcut, -⟩ := receive_cases limit chunks
  · exact hsame
  · exact absurd (hheader.length_le hshort) (Nat.not_le.mpr (Nat.lt_of_succ_lt hcut.lt_length))

/-- **How a stream is cut does not matter.** Whatever its bytes are, as long as no header is longer
than the limit, two ways to cut it give the same messages in the same order, and then the same
fault or the same receiver, with what it remembers and what it has kept. -/
theorem cutting_does_not_matter {limit : Nat} {chunks chunks' : List Bytes}
    (hshort : ShortHeaders limit chunks.flatten) (h : chunks.flatten = chunks'.flatten) :
    (new limit).receive chunks = (new limit).receive chunks' := by
  rw [receive_eq_drain hshort, receive_eq_drain (h ▸ hshort), h]

/-- Cuts within a blank line, a header, its end and a body, before a header that says nothing of a
length. -/
theorem cutting_within_lines :
    let chunks := ["\r", "\nContent-Len", "gth: 2\r\n\r", "\n\x7b", "\x7dX: 1\r", "\n\r\n"].map
      Utf8.ofString
    let whole := [Utf8.ofString "\r\nContent-Length: 2\r\n\r\n\x7b\x7dX: 1\r\n\r\n"]
    ShortHeaders 9 chunks.flatten ∧ chunks.flatten = whole.flatten ∧
      (new 9).receive whole = ([Utf8.ofString "\x7b\x7d"], .error .noLength) ∧
      (new 9).receive chunks = (new 9).receive whole :=
  have hshort := shortHeaders_of_length (by decide +kernel)
  ⟨hshort, by decide +kernel, by decide +kernel,
    cutting_does_not_matter hshort (by decide +kernel)⟩

end Receiver

end Frame

end PlatformProxy
