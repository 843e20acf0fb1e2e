import Mathlib.Data.List.Infix
import PlatformProxy.Frame.Codec

/-!
# Receiving a stream in pieces

A receiver that gets more bytes before it looks for the next message finds the same message, and
one that has looked in vain, or has found a fault, is no different, for what it finds later, from
one that has not looked.
The messages taken off a stream that comes in pieces are therefore those that a receiver takes off
when it gets everything at once.

## Main definitions

* `Frame.Receiver.Takes` — the messages a receiver takes, and what it is left with
* `Frame.Receiver.Agrees` — two receivers that find the same, whatever comes

## Main results

* `Frame.Receiver.decode_feed_of_some`, `Frame.Receiver.decode_feed_of_none` — more bytes do not
  change what has been found
* `Frame.Receiver.Takes.feed` — and so for a whole list of messages
-/

namespace PlatformProxy

namespace Frame

/-! ### Looking for the end of a header -/

theorem length_of_findTerminator {bytes : Bytes} {stop : Nat}
    (h : findTerminator bytes = some stop) : stop + terminator.length ≤ bytes.length := by
  induction bytes generalizing stop with
  | nil => simp [findTerminator] at h
  | cons b rest ih =>
    rw [findTerminator] at h
    split at h
    · rename_i hprefix
      obtain rfl := Option.some.inj h
      rw [Nat.zero_add]
      exact (List.isPrefixOf_iff_prefix.mp hprefix).length_le
    · obtain ⟨n, hn, rfl⟩ := Option.map_eq_some_iff.mp h
      have hlength := ih hn
      rw [List.length_cons]
      omega

/-- More bytes do not move the end of a header. -/
theorem findTerminator_append {bytes : Bytes} {stop : Nat} (h : findTerminator bytes = some stop)
    (more : Bytes) : findTerminator (bytes ++ more) = some stop := by
  induction bytes generalizing stop with
  | nil => simp [findTerminator] at h
  | cons b rest ih =>
    rw [findTerminator] at h
    rw [List.cons_append, findTerminator]
    split at h <;> rename_i hprefix
    · have hlonger : terminator <+: b :: (rest ++ more) :=
        (List.isPrefixOf_iff_prefix.mp hprefix).trans (List.prefix_append (b :: rest) more)
      rw [if_pos (List.isPrefixOf_iff_prefix.mpr hlonger)]
      exact h
    · obtain ⟨n, hn, rfl⟩ := Option.map_eq_some_iff.mp h
      have hlength := length_of_findTerminator hn
      -- The first four bytes were there before.
      have hnot : ¬ terminator.isPrefixOf (b :: (rest ++ more)) = true := by
        intro hlonger
        refine hprefix (List.isPrefixOf_iff_prefix.mpr ?_)
        refine List.prefix_of_prefix_length_le (List.isPrefixOf_iff_prefix.mp hlonger)
          (List.prefix_append (b :: rest) more) ?_
        rw [List.length_cons]
        omega
      rw [if_neg hnot, ih hn]
      rfl

/-! ### Blank lines -/

/-- Blank lines may be dropped before more bytes come. -/
theorem dropBlankLines_append (bytes more : Bytes) :
    dropBlankLines (bytes ++ more) = dropBlankLines (dropBlankLines bytes ++ more) := by
  fun_induction dropBlankLines bytes with
  | case1 a b rest h ih =>
    rw [List.cons_append, List.cons_append, dropBlankLines, if_pos h, ih]
  | case2 a b rest h => rfl
  | case3 bytes h => rfl

theorem dropBlankLines_append_of_length {bytes : Bytes} (h : 2 ≤ (dropBlankLines bytes).length)
    (more : Bytes) : dropBlankLines (bytes ++ more) = dropBlankLines bytes ++ more := by
  fun_induction dropBlankLines bytes with
  | case1 a b rest hblank ih =>
    rw [List.cons_append, List.cons_append, dropBlankLines, if_pos hblank, ih h]
  | case2 a b rest hblank =>
    rw [List.cons_append, List.cons_append, dropBlankLines, if_neg hblank]
  | case3 bytes hshort =>
    match bytes with
    | [] => simp at h
    | [a] => simp at h
    | a :: b :: rest => exact absurd rfl (hshort a b rest)

namespace Receiver

/-! ### One message -/

theorem feed_nil (r : Receiver) : r.feed [] = r := by
  rw [feed, List.append_nil]

theorem feed_feed (r : Receiver) (first second : Bytes) :
    (r.feed first).feed second = r.feed (first ++ second) := by
  simp only [feed, List.append_assoc]

theorem takeBody_feed_of_some {r r' : Receiver} {length : Nat} {body : Bytes}
    (h : r.takeBody length = (.ok (some body), r')) (more : Bytes) :
    (r.feed more).takeBody length = (.ok (some body), r'.feed more) := by
  rw [takeBody] at h
  split at h <;> rename_i hlength
  · simp at h
  · obtain ⟨hbody, rfl⟩ := Prod.mk.inj h
    obtain rfl := Option.some.inj (Except.ok.inj hbody)
    have hlonger : ¬ (r.buffer ++ more).length < length := by
      rw [List.length_append]
      omega
    rw [takeBody, feed, if_neg hlonger, List.take_append_of_le_length (by omega),
      List.drop_append_of_le_length (by omega)]
    rfl

theorem takeBody_eq_none {r r' : Receiver} {length : Nat}
    (h : r.takeBody length = (.ok none, r')) : r' = { r with bodyLength := some length } := by
  rw [takeBody] at h
  split at h
  · exact (Prod.mk.inj h).2.symm
  · simp at h

/-- What has been read when a header is no error: nothing, as its end is not there, or a length
that is not too long. -/
theorem takeHeader_eq_ok {r r' : Receiver} {result : Option Bytes}
    (h : r.takeHeader = (.ok result, r')) :
    (findTerminator r.buffer = none ∧ result = none ∧ r' = r) ∨
      ∃ stop length, findTerminator r.buffer = some stop ∧
        announcedLength (r.buffer.take (stop + 2)) = .ok length ∧ ¬ r.limit < length ∧
        takeBody { r with buffer := r.buffer.drop (stop + terminator.length) } length =
          (.ok result, r') := by
  rw [takeHeader] at h
  split at h <;> rename_i hstop
  · split at h
    · simp at h
    · obtain ⟨hresult, rfl⟩ := Prod.mk.inj h
      exact .inl ⟨hstop, (Except.ok.inj hresult).symm, rfl⟩
  · rename_i stop
    split at h <;> rename_i hannounced
    · simp at h
    · rename_i length
      split at h <;> rename_i hlimit
      · simp at h
      · exact .inr ⟨stop, length, hstop, hannounced, hlimit, h⟩

theorem takeHeader_feed {r : Receiver} {stop length : Nat}
    (hstop : findTerminator r.buffer = some stop)
    (hannounced : announcedLength (r.buffer.take (stop + 2)) = .ok length)
    (hlimit : ¬ r.limit < length) (more : Bytes) :
    (r.feed more).takeHeader =
      (Receiver.feed { r with buffer := r.buffer.drop (stop + terminator.length) } more).takeBody
        length := by
  have hlength := length_of_findTerminator hstop
  have htake : (r.buffer ++ more).take (stop + 2) = r.buffer.take (stop + 2) :=
    List.take_append_of_le_length (Nat.le_trans (Nat.add_le_add_left (by decide) stop) hlength)
  have hdrop : (r.buffer ++ more).drop (stop + terminator.length) =
      r.buffer.drop (stop + terminator.length) ++ more :=
    List.drop_append_of_le_length hlength
  rw [takeHeader, feed]
  dsimp only
  rw [findTerminator_append hstop]
  dsimp only
  rw [htake, hannounced]
  dsimp only
  rw [if_neg hlimit, hdrop, feed]

/-- Before a header, blank lines do not count. -/
theorem decode_feed_of_header {limit : Nat} {buffer : Bytes} {stop : Nat}
    (h : findTerminator (dropBlankLines buffer) = some stop) (more : Bytes) :
    (feed ⟨limit, none, buffer⟩ more).decode =
      (feed ⟨limit, none, dropBlankLines buffer⟩ more).takeHeader := by
  have hlength : 2 ≤ (dropBlankLines buffer).length :=
    Nat.le_trans (Nat.le_add_left 2 (stop + 2)) (length_of_findTerminator h)
  simp only [decode, feed]
  rw [dropBlankLines_append_of_length hlength]

/-- **More bytes do not change a message that is there.** -/
theorem decode_feed_of_some {r r' : Receiver} {body : Bytes}
    (h : r.decode = (.ok (some body), r')) (more : Bytes) :
    (r.feed more).decode = (.ok (some body), r'.feed more) := by
  obtain ⟨limit, bodyLength, buffer⟩ := r
  cases bodyLength with
  | some length => exact takeBody_feed_of_some h more
  | none =>
    obtain ⟨-, hnone, -⟩ | ⟨stop, length, hstop, hannounced, hlimit, htake⟩ := takeHeader_eq_ok h
    · simp at hnone
    · rw [decode_feed_of_header hstop, takeHeader_feed hstop hannounced hlimit]
      exact takeBody_feed_of_some htake more

/-- **Looking in vain changes nothing** for what comes later. -/
theorem decode_feed_of_none {r r' : Receiver} (h : r.decode = (.ok none, r')) (more : Bytes) :
    (r.feed more).decode = (r'.feed more).decode := by
  obtain ⟨limit, bodyLength, buffer⟩ := r
  cases bodyLength with
  | some length => rw [takeBody_eq_none h]
  | none =>
    obtain ⟨-, -, rfl⟩ | ⟨stop, length, hstop, hannounced, hlimit, htake⟩ := takeHeader_eq_ok h
    · simp only [decode, feed]
      rw [dropBlankLines_append]
    · rw [decode_feed_of_header hstop, takeHeader_feed hstop hannounced hlimit,
        takeBody_eq_none htake]
      rfl

theorem takeBody_ne_error {r r' : Receiver} {length : Nat} {e : Error} :
    r.takeBody length ≠ (.error e, r') := by
  rw [takeBody]
  split <;> simp

theorem takeHeader_eq_error {r r' : Receiver} {e : Error} (h : r.takeHeader = (.error e, r')) :
    r' = r := by
  rw [takeHeader] at h
  split at h
  · split at h <;> exact (Prod.mk.inj h).2.symm
  · split at h
    · exact (Prod.mk.inj h).2.symm
    · split at h
      · exact (Prod.mk.inj h).2.symm
      · exact absurd h takeBody_ne_error

/-- **Finding a fault changes nothing** for what comes later. -/
theorem decode_feed_of_error {r r' : Receiver} {e : Error} (h : r.decode = (.error e, r'))
    (more : Bytes) : (r.feed more).decode = (r'.feed more).decode := by
  obtain ⟨limit, bodyLength, buffer⟩ := r
  cases bodyLength with
  | some length => exact absurd h takeBody_ne_error
  | none =>
    rw [takeHeader_eq_error h]
    simp only [decode, feed]
    rw [dropBlankLines_append]

/-- A receiver that has looked in vain looks in vain again. -/
theorem decode_of_decode_none {r r' : Receiver} (h : r.decode = (.ok none, r')) :
    r'.decode = (.ok none, r') := by
  have hsame := decode_feed_of_none h []
  rw [feed_nil, feed_nil] at hsame
  exact hsame.symm.trans h

theorem limit_takeBody (r : Receiver) (length : Nat) : (r.takeBody length).2.limit = r.limit := by
  rw [takeBody]
  split <;> rfl

theorem limit_takeHeader (r : Receiver) : r.takeHeader.2.limit = r.limit := by
  rw [takeHeader]
  split
  · split <;> rfl
  · split
    · rfl
    · split
      · rfl
      · exact limit_takeBody _ _

theorem limit_of_decode {r r' : Receiver} {result : Except Error (Option Bytes)}
    (h : r.decode = (result, r')) : r'.limit = r.limit := by
  rw [decode] at h
  split at h
  · rw [← limit_takeBody r, h]
  · exact (congrArg (fun d => d.2.limit) h).symm.trans (limit_takeHeader _)

/-! ### When no more bytes come -/

theorem finish_of_none {r r' : Receiver} (h : r.decode = (.ok none, r')) :
    r.finish = (if r'.buffer.isEmpty then .ok none else .error .truncated, r') := by
  rw [finish, h]

theorem finish_of_ne_none {r : Receiver} (h : r.decode.1 ≠ .ok none) : r.finish = r.decode := by
  rw [finish]
  split
  · rename_i r' hr'
    rw [hr'] at h
    exact absurd rfl h
  · rfl

theorem decode_of_finish_some {r r' : Receiver} {body : Bytes}
    (h : r.finish = (.ok (some body), r')) : r.decode = (.ok (some body), r') := by
  match hdecode : r.decode with
  | (.ok none, r'') =>
    rw [finish_of_none hdecode] at h
    split at h <;> simp at h
  | (.ok (some _), _) => rw [← hdecode, ← finish_of_ne_none (by rw [hdecode]; simp), h]
  | (.error _, _) => rw [← hdecode, ← finish_of_ne_none (by rw [hdecode]; simp), h]

/-! ### All messages -/

/-- The messages a receiver takes one after another, and what it is left with. -/
inductive Takes : Receiver → List Bytes → Receiver → Prop
  | nil (r : Receiver) : Takes r [] r
  | cons {r r' r'' : Receiver} {body : Bytes} {bodies : List Bytes}
      (h : r.decode = (.ok (some body), r')) (rest : Takes r' bodies r'') :
      Takes r (body :: bodies) r''

theorem Takes.snoc {r r' r'' : Receiver} {bodies : List Bytes} {body : Bytes}
    (h : r.Takes bodies r') (hbody : r'.decode = (.ok (some body), r'')) :
    r.Takes (bodies ++ [body]) r'' := by
  induction h with
  | nil => exact .cons hbody (.nil _)
  | cons hfirst _ ih => exact .cons hfirst (ih hbody)

/-- More bytes do not change the messages that are there. -/
theorem Takes.feed {r r' : Receiver} {bodies : List Bytes} (h : r.Takes bodies r')
    (more : Bytes) : (r.feed more).Takes bodies (r'.feed more) := by
  induction h with
  | nil => exact .nil _
  | cons hfirst _ ih => exact .cons (decode_feed_of_some hfirst more) ih

theorem Takes.trans {r r' r'' : Receiver} {bodies bodies' : List Bytes} (h : r.Takes bodies r')
    (h' : r'.Takes bodies' r'') : r.Takes (bodies ++ bodies') r'' := by
  induction h with
  | nil => exact h'
  | cons hfirst _ ih => exact .cons hfirst (ih h')

theorem Takes.limit_eq {r r' : Receiver} {bodies : List Bytes} (h : r.Takes bodies r') :
    r'.limit = r.limit := by
  induction h with
  | nil => rfl
  | cons hfirst _ ih => exact ih.trans (limit_of_decode hfirst)

/-- Both find the same, whatever comes. -/
def Agrees (r r' : Receiver) : Prop := ∀ more, (r.feed more).decode = (r'.feed more).decode

theorem Agrees.refl (r : Receiver) : r.Agrees r := fun _ => rfl

theorem Agrees.decode {r r' : Receiver} (h : r.Agrees r') : r.decode = r'.decode := by
  have hnil := h []
  rwa [feed_nil, feed_nil] at hnil

theorem Agrees.feed {r r' : Receiver} (h : r.Agrees r') (chunk : Bytes) :
    (r.feed chunk).Agrees (r'.feed chunk) := by
  intro more
  rw [feed_feed, feed_feed]
  exact h (chunk ++ more)

theorem Agrees.trans {r r' r'' : Receiver} (h : r.Agrees r') (h' : r'.Agrees r'') : r.Agrees r'' :=
  fun more => (h more).trans (h' more)

/-- One of the two may look in vain. -/
theorem Agrees.of_none {r r' r'' : Receiver} (h : r.Agrees r')
    (hnone : r'.decode = (.ok none, r'')) :
    r.Agrees r'' := by
  intro more
  rw [h more]
  exact decode_feed_of_none hnone more

/-- One of the two may find a fault. -/
theorem Agrees.of_error {r r' r'' : Receiver} {e : Error} (h : r.Agrees r')
    (herror : r'.decode = (.error e, r'')) : r.Agrees r'' := by
  intro more
  rw [h more]
  exact decode_feed_of_error herror more

end Receiver

end Frame

end PlatformProxy
