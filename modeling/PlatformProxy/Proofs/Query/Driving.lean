import PlatformProxy.Proofs.Transition
import PlatformProxy.Query.Leaderboard
import PlatformProxy.Query.Workshop

/-!
# Queries on their own

A query can do without a session. It is driven by whoever collects the completion of each call it
waits for. A client may never deliver one, so a query is driven for a number of rounds, and comes to
nothing if there is no completion or the rounds are over.

## Main definitions

* `Query.drive` — a query from one of its steps on
* `Query.Workshop.drive`, `Query.Workshop.Finds` — a whole Workshop search, and what it comes to
* `Query.Leaderboard.drive`, `Query.Leaderboard.Resolves` — the same for a leaderboard query

## Main results

* `Query.run_drive_await` — one round
-/

namespace PlatformProxy

namespace Query

open Platform

variable {σ Q R : Type} [Client σ]

/-- Whenever the query waits for a call, the completion of the call is collected, and the query goes
on with it. -/
def drive (advance : Q → Completion → StateM σ (Step Q R)) :
    (rounds : Nat) → Next Q R → StateM σ (Option (Except Error R))
  | _, .done reply => pure (some reply)
  | 0, .await _ _ => pure none
  | rounds + 1, .await call query => do
    match (← Client.collect).find? fun c => c.1 = call with
    | none => pure none
    | some c => drive advance rounds (← advance query c.2).next

theorem run_drive_done (advance : Q → Completion → StateM σ (Step Q R)) (rounds : Nat)
    (reply : Except Error R) (c : σ) :
    (drive advance rounds (.done reply)).run c = (some reply, c) := by
  cases rounds <;> rfl

/-- A round with a completion is a step of the query. -/
theorem run_drive_await {advance : Q → Completion → StateM σ (Step Q R)} {call : CallRef} {c : σ}
    {completion : Completion}
    (h : ((Client.collect.run c).1.find? fun x => x.1 = call) = some (call, completion))
    (rounds : Nat) (query : Q) :
    (drive advance (rounds + 1) (.await call query)).run c =
      let r := (advance query completion).run (Client.collect.run c).2
      (drive advance rounds r.1.next).run r.2 := by
  rw [drive, Transition.run_bind, h]
  rfl

namespace Workshop

/-- A Workshop search from its start. -/
def drive (rounds : Nat) (scope : Scope) (search : Search) :
    StateM σ (Option (Except Error (List Level))) := do
  Query.drive advance rounds (← start scope search).next

/-- A search finds some items in the end, and leaves the client as `c'`. -/
def Finds (c : σ) (scope : Scope) (search : Search) (levels : List Level) (c' : σ) : Prop :=
  ∃ rounds, ∀ n ≥ rounds, (drive n scope search).run c = (some (.ok levels), c')

theorem Finds.unique {c c₁ c₂ : σ} {scope : Scope} {search : Search} {levels levels' : List Level}
    (h : Finds c scope search levels c₁) (h' : Finds c scope search levels' c₂) :
    levels = levels' := by
  obtain ⟨n, hn⟩ := h
  obtain ⟨m, hm⟩ := h'
  have hsame := (hn (max n m) (Nat.le_max_left n m)).symm.trans
    (hm (max n m) (Nat.le_max_right n m))
  exact Except.ok.inj (Option.some.inj (Prod.mk.inj hsame).1)

end Workshop

namespace Leaderboard

/-- A leaderboard query from its start. -/
def drive (rounds : Nat) (name : String) (selector : Selector) :
    StateM σ (Option (Except Error Standings)) := do
  Query.drive advance rounds (← start name selector).next

/-- A query has this reply in the end, and leaves the client as `c'`. -/
def Resolves (c : σ) (name : String) (selector : Selector) (reply : Except Error Standings)
    (c' : σ) : Prop :=
  ∃ rounds, ∀ n ≥ rounds, (drive n name selector).run c = (some reply, c')

end Leaderboard

end Query

end PlatformProxy
