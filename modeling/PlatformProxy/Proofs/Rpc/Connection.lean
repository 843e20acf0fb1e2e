import PlatformProxy.Proofs.Frame.Receiving
import PlatformProxy.Rpc.Connection

/-!
# What can happen to a connection

Each operation of a connection is opened once. What it can do is a relation with one case for each
way it can go, and whatever is proved about connections is proved by these cases.

## Main definitions

* `Rpc.Response.frame` — the bytes of a response on the stream
* `Rpc.Connection.look` — look for the next message, whether or not more bytes will come
* `Rpc.Connection.Looks`, `Rpc.Connection.Finishes` — what can come of looking for a message, and of
  a message that is finished

## Main results

* `Rpc.Connection.looks`, `Rpc.Connection.finishes` — nothing else can
-/

namespace PlatformProxy

namespace Rpc

/-- The bytes of a response on the stream. -/
def Response.frame (r : Response) : Bytes :=
  Frame.header (Json.bytesOf r).length ++ Json.bytesOf r

namespace Connection

/-- Only a connection that has to answer what is in flight, and has nothing in flight, is closed. -/
theorem settle_cases (c : Connection) :
    c.settle = c ∨
      c.phase = .draining ∧ c.inFlight = [] ∧ c.settle = { c with phase := .closed } := by
  rw [settle]
  split
  · rename_i hphase hnone
    exact .inr ⟨hphase, hnone, rfl⟩
  · exact .inl rfl

/-! ### Looking for a message -/

/-- Look for the next message. -/
def look (c : Connection) (ended : Bool) : Option (Nat × Bytes) × Connection :=
  if ended then c.nextAtEnd else c.next

/-- What can come of looking for a message. -/
inductive Looks (c : Connection) : Bool → Option (Nat × Bytes) → Connection → Prop
  | idle {ended : Bool} (hphase : c.phase ≠ .reading) : Looks c ended none c
  | found {ended : Bool} {r : Frame.Receiver} {body : Bytes} (hphase : c.phase = .reading)
      (hdecode : c.receiver.decode = (.ok (some body), r)) :
      Looks c ended (some (c.nextRequest, body))
        { c with
          receiver := r
          nextRequest := c.nextRequest + 1
          inFlight := c.inFlight ++ [c.nextRequest] }
  | waits {r : Frame.Receiver} (hphase : c.phase = .reading)
      (hdecode : c.receiver.decode = (.ok none, r)) : Looks c false none { c with receiver := r }
  | drains {r : Frame.Receiver} (hphase : c.phase = .reading)
      (hdecode : c.receiver.decode = (.ok none, r)) (hempty : r.buffer = []) :
      Looks c true none { c with receiver := r, phase := .draining }.settle
  | fails {ended : Bool} {r : Frame.Receiver} (hphase : c.phase = .reading)
      (hlimit : r.limit = c.receiver.limit) (e : Frame.Error) :
      Looks c ended none { c with receiver := r, phase := .failed e }

theorem looks_next (c : Connection) : c.Looks false c.next.1 c.next.2 := by
  rw [next]
  split
  · rename_i hphase
    rw [accept]
    cases hdecode : c.receiver.decode with
    | mk result r =>
      have hlimit := Frame.Receiver.limit_of_decode hdecode
      match result with
      | .error e => exact .fails hphase hlimit e
      | .ok none => exact .waits hphase hdecode
      | .ok (some body) => exact .found hphase hdecode
  · rename_i hphase
    exact .idle hphase

theorem looks_nextAtEnd (c : Connection) : c.Looks true c.nextAtEnd.1 c.nextAtEnd.2 := by
  rw [nextAtEnd]
  split
  · rename_i hphase
    cases hdecode : c.receiver.decode with
    | mk result r =>
      have hlimit := Frame.Receiver.limit_of_decode hdecode
      match result with
      | .error e =>
        rw [Frame.Receiver.finish_of_ne_none (by rw [hdecode]; simp), hdecode, accept]
        exact .fails hphase hlimit e
      | .ok none =>
        rw [Frame.Receiver.finish_of_none hdecode]
        cases hempty : r.buffer.isEmpty with
        | false => exact .fails hphase hlimit .truncated
        | true =>
          simp only [if_true, accept, hphase]
          exact .drains hphase hdecode (List.isEmpty_iff.mp hempty)
      | .ok (some body) =>
        rw [Frame.Receiver.finish_of_ne_none (by rw [hdecode]; simp), hdecode, accept]
        exact .found hphase hdecode
  · rename_i hphase
    exact .idle hphase

theorem looks (c : Connection) (ended : Bool) :
    c.Looks ended (c.look ended).1 (c.look ended).2 := by
  cases ended with
  | false => exact looks_next c
  | true => exact looks_nextAtEnd c

/-! ### Finishing a message -/

/-- What can come of a message that is finished, given its response. -/
inductive Finishes (c : Connection) (i : Nat) : Option Response → Connection → Prop
  | idle {response : Option Response} : Finishes c i response c
  | silent (hi : i ∈ c.inFlight) :
      Finishes c i none { c with inFlight := c.inFlight.erase i }.settle
  | written {r : Response} (hi : i ∈ c.inFlight)
      (hlength : (Json.bytesOf r).length ≤ c.receiver.limit) :
      Finishes c i (some r)
        { c with inFlight := c.inFlight.erase i, written := c.written ++ r.frame }.settle
  | tooLong {r : Response} (hi : i ∈ c.inFlight) (e : Frame.Error) :
      Finishes c i (some r) { c with inFlight := c.inFlight.erase i, phase := .failed e }

theorem finishes_write {c : Connection} {i : Nat} (r : Response) (hi : i ∈ c.inFlight) :
    c.Finishes i (some r) (write { c with inFlight := c.inFlight.erase i } r).settle := by
  rw [write, Frame.encode]
  dsimp only
  by_cases hlength : c.receiver.limit < (Json.bytesOf r).length
  · rw [if_pos hlength]
    exact .tooLong hi _
  · rw [if_neg hlength]
    exact .written hi (Nat.le_of_not_lt hlength)

theorem finishes (c : Connection) (i : Nat) (response : Option Response) :
    c.Finishes i response (c.answer i response) := by
  rw [answer]
  by_cases hi : i ∈ c.inFlight
  · simp only [if_pos hi]
    cases response with
    | none =>
      split
      · exact .idle
      · exact .idle
      · exact .silent hi
      · exact .silent hi
    | some r =>
      split
      · exact .idle
      · exact .idle
      · exact finishes_write r hi
      · exact finishes_write r hi
  · simp only [if_neg hi]
    split <;> exact .idle

end Connection

end Rpc

end PlatformProxy
