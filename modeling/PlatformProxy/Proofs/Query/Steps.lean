import PlatformProxy.Proofs.Transition
import PlatformProxy.Session

/-!
# The steps of queries

What the steps of a query do to a client and what they lead to, whatever the client. Every query
has a weight that bounds how many more completions it waits for, and each step makes it lighter.

## Main definitions

* `Session.Task.weight`, `Session.Command.weight`
* `Session.Progress.Follows` — what a step of a query of some weight may lead to

## Main results

* `Query.Leaderboard.run_read`, `Query.Workshop.run_read` — reading what a call has made ready
* `Session.Task.follows_advance`, `Session.Command.follows_start` — every step leads to a lighter
  query or to an outcome, and never to that of a closed session
-/

namespace PlatformProxy

open Platform

variable {σ : Type} [Client σ]

namespace Query

/-! ### Reading -/

theorem Leaderboard.run_read (query : Leaderboard) (total : Int32) (download : Download) (c : σ) :
    (query.read total download).run c =
      let r := (readEntries download.entries (query.selector.wanted download.count) 0 []).run c
      (match r.1 with
        | .error index => query.fail (unreadable query.name index)
        | .ok entries => .done ⟨entries, total⟩,
        ((Client.releaseEntries download.entries).run r.2).2) := by
  rcases h : (readEntries download.entries (query.selector.wanted download.count) 0 []).run c
    with ⟨r, c'⟩
  cases r <;> (simp only [read, Transition.run_bind, h]; rfl)

/-- A page is released before anything else is done. -/
theorem Workshop.run_read (query : Workshop) (summary : PageSummary) (c : σ) :
    (query.read summary).run c =
      let wanted := min query.remaining summary.returned.toNat
      let r := (readItems summary.page wanted 0 ⟨[], []⟩).run c
      let c' := ((Client.releasePage summary.page).run r.2).2
      let warnings := r.1.2.warnings.reverse
      let results := query.results ++ r.1.2.entries.reverse
      match r.1.1 with
      | some index => (query.fail (unreadable query.page index) warnings, c')
      | none =>
        if summary.total.toNat ≤ results.length ∨ query.remaining - wanted = 0 ∨
            summary.returned = 0 then
          (⟨.done (.ok results), warnings⟩, c')
        else
          (requestPage
            { query with page := query.page + 1, remaining := query.remaining - wanted, results }
            warnings).run c' := by
  rcases h : (readItems summary.page (min query.remaining summary.returned.toNat) 0 ⟨[], []⟩).run c
    with ⟨⟨failed, gathered⟩, c'⟩
  cases failed with
  | some index =>
    simp only [read, Transition.run_bind, h]
    rfl
  | none =>
    simp only [read, Transition.run_bind, h]
    split <;> rfl

end Query

namespace Session

open Query

/-! ### Weights -/

/-- More than the number of completions the query waits for. -/
def Task.weight : Task → Nat
  | .leaderboard ⟨_, _, .finding⟩ => 2
  | .leaderboard ⟨_, _, .downloading _⟩ => 1
  | .workshop query => query.remaining + 1

def Command.weight : Command → Nat
  | .leaderboard _ _ => 3
  | .workshop search => search.maxResults.toNat + 2
  | .personaName _ => 1

theorem Task.weight_pos (task : Task) : 0 < task.weight := by
  rcases task with ⟨name, selector, _ | total⟩ | query <;> simp [weight]

theorem Command.weight_pos (command : Command) : 0 < command.weight := by
  cases command <;> simp [weight]

/-- What a step of a query of some weight may lead to. -/
def Progress.Follows (weight : Nat) : Progress → Prop
  | .await _ task => task.weight < weight
  | .done outcome => outcome ≠ .error .closed

theorem follows_advance_leaderboard (query : Leaderboard) (completion : Completion) (c : σ) :
    (Progress.ofStep .leaderboard .leaderboard ((query.advance completion).run c).1).Follows
      (Task.leaderboard query).weight := by
  obtain ⟨name, selector, stage⟩ := query
  cases stage with
  | finding =>
    rcases completion with (_ | _ | board) | download | summary
    case boardFound.ok.some => cases selector <;> exact Nat.one_lt_two
    all_goals exact fun h => nomatch h
  | downloading total =>
    rcases completion with board | (_ | download) | summary
    case downloaded.ok =>
      change (Progress.ofStep .leaderboard .leaderboard
        (((⟨name, selector, .downloading total⟩ : Leaderboard).read total download).run
          c).1).Follows _
      rw [Leaderboard.run_read]
      dsimp only
      split <;> exact fun h => nomatch h
    all_goals exact fun h => nomatch h

theorem follows_advance_workshop (query : Workshop) (completion : Completion) (c : σ) :
    (Progress.ofStep .workshop .workshop ((query.advance completion).run c).1).Follows
      (Task.workshop query).weight := by
  rcases completion with board | download | (_ | summary)
  case pageCompleted.ok =>
    change (Progress.ofStep .workshop .workshop ((query.read summary).run c).1).Follows _
    rw [Workshop.run_read]
    dsimp only
    split
    · exact fun h => nomatch h
    · split
      · exact fun h => nomatch h
      · rename_i hmore
        have hreturned : summary.returned.toNat ≠ 0 := fun h =>
          hmore (Or.inr (Or.inr (UInt32.toNat_inj.mp h)))
        have hremaining : query.remaining - min query.remaining summary.returned.toNat ≠ 0 :=
          fun h => hmore (Or.inr (Or.inl h))
        change query.remaining - min query.remaining summary.returned.toNat + 1 <
          query.remaining + 1
        omega
  all_goals exact fun h => nomatch h

/-- **Every step of a query leads to a lighter one or to an outcome**, and the outcome is never
that of a closed session. -/
theorem Task.follows_advance (task : Task) (completion : Completion) (c : σ) :
    ((task.advance completion).run c).1.Follows task.weight := by
  cases task with
  | leaderboard query => exact follows_advance_leaderboard query completion c
  | workshop query => exact follows_advance_workshop query completion c

theorem Command.follows_start (command : Command) (scope : Scope) (c : σ) :
    ((command.start scope).run c).1.Follows command.weight := by
  cases command with
  | leaderboard name selector => exact Nat.lt_succ_self 2
  | personaName user => exact fun h => nomatch h
  | workshop search =>
    rw [start, Transition.run_map, Workshop.start]
    dsimp only
    split
    · exact fun h => nomatch h
    · exact Nat.lt_succ_self _

end Session

end PlatformProxy
