import Mathlib.Data.List.Induction
import PlatformProxy.Proofs.Platform.Transcript
import PlatformProxy.Query.Basic

/-!
# The course of a query

A query is started on a client, and is given completions one after the other until it has a reply.
What it does in the meantime can be seen from outside: the calls of each of its steps and what they
returned, and where it stands.

Nothing connects the client of one step with that of the next. Other queries may have used it, and
the completions need not be those of the calls that were made, so what holds of every course holds
with any client.

## Main definitions

* `Query.Delivery` — a completion for a query
* `Query.Course` — what a query has done
* `Query.Course.run` — a query from its start, with some deliveries
-/

namespace PlatformProxy

namespace Query

open Platform

/-- A completion, and the client as it is when a query gets it. -/
structure Delivery (σ : Type) where
  client : σ
  completion : Completion

/-- What a query has done: the calls of each of its steps, and where it stands. -/
structure Course (Q R : Type) where
  steps : List (List Answered)
  next : Next Q R

namespace Course

variable {σ Q R : Type} [Client σ]

/-- The query has been started. -/
def begin (start : Program (Step Q R)) (c : σ) : Course Q R :=
  ⟨[start.transcript c], ((start σ).run c).1.next⟩

/-- The query is given a completion. Once it has a reply it takes none. -/
def deliver (advance : Q → Completion → Program (Step Q R)) (course : Course Q R)
    (d : Delivery σ) : Course Q R :=
  match course.next with
  | .done _ => course
  | .await _ query =>
    let step := advance query d.completion
    ⟨course.steps ++ [step.transcript d.client], ((step σ).run d.client).1.next⟩

def run (start : Program (Step Q R)) (advance : Q → Completion → Program (Step Q R)) (c : σ)
    (ds : List (Delivery σ)) : Course Q R :=
  ds.foldl (deliver advance) (begin start c)

variable {start : Program (Step Q R)} {advance : Q → Completion → Program (Step Q R)}

theorem begin_eq {c c' : σ} {calls : List Answered} {step : Step Q R}
    (h : start.Performs c calls step c') : begin start c = ⟨[calls], step.next⟩ := by
  rw [begin, h.transcript_eq, h.run]

theorem deliver_of_done {course : Course Q R} {reply : Except Error R}
    (h : course.next = .done reply) (d : Delivery σ) : course.deliver advance d = course := by
  rw [deliver, h]

theorem run_concat (c : σ) (ds : List (Delivery σ)) (d : Delivery σ) :
    run start advance c (ds ++ [d]) = (run start advance c ds).deliver advance d := by
  rw [run, List.foldl_append]
  rfl

/-- A query that waits takes one more step. -/
theorem run_concat_of_await {c c' : σ} {ds : List (Delivery σ)} {d : Delivery σ}
    {steps : List (List Answered)} {call : CallRef} {query : Q} {calls : List Answered}
    {step : Step Q R} (h : run start advance c ds = ⟨steps, .await call query⟩)
    (hstep : (advance query d.completion).Performs d.client calls step c') :
    run start advance c (ds ++ [d]) = ⟨steps ++ [calls], step.next⟩ := by
  rw [run_concat, h, deliver]
  dsimp only
  rw [hstep.transcript_eq, hstep.run]

/-- What comes after the reply is of no account. -/
theorem run_append_of_done {c : σ} {ds : List (Delivery σ)} {reply : Except Error R}
    (h : (run start advance c ds).next = .done reply) (more : List (Delivery σ)) :
    run start advance c (ds ++ more) = run start advance c ds := by
  induction more using List.reverseRecOn with
  | nil => rw [List.append_nil]
  | append_singleton more d ih =>
    rw [← List.append_assoc, run_concat, ih]
    exact deliver_of_done h d

end Course

end Query

end PlatformProxy
