import PlatformProxy.Proofs.Query.Course
import PlatformProxy.Proofs.Query.Rows

/-!
# One page of a Workshop search

A search that waits for a page takes one step with any completion. There are five ways that can go,
and they are told apart by the completion, by whether all items that are due can be read, and by
where the search stands behind the page.

## Main definitions

* `Query.Workshop.Visit` — a page and the items that were read of it
* `Query.Workshop.behind` — a search behind a page
* `Query.Workshop.Turns` — what can come of a completion

## Main results

* `Query.Workshop.turns` — with any client, one of these comes of it
-/

namespace PlatformProxy

namespace Query

open Platform
open Program (Performs)

namespace Workshop

variable {σ : Type} [Client σ]

/-! ### One page -/

/-- A page and the items that were read of it. -/
structure Visit where
  summary : PageSummary
  rows : List Row

namespace Visit

/-- The calls that read items of a page and release it. -/
def calls (v : Visit) : List Answered :=
  reading (Row.calls v.summary.page) v.rows 0 ++ [⟨.releasePage v.summary.page, ()⟩]

def levels (v : Visit) : List Level := v.rows.map Row.level

end Visit

/-- How many items of a page a search reads. -/
def due (query : Workshop) (summary : PageSummary) : Nat :=
  min query.remaining summary.returned.toNat

/-- A search that has read items of its page and stands at the next. -/
def behind (query : Workshop) (v : Visit) : Workshop :=
  { query with
    page := query.page + 1
    remaining := query.remaining - v.rows.length
    results := query.results ++ v.levels }

/-- A search needs no page behind this one. -/
def EndsAt (query : Workshop) (v : Visit) : Prop :=
  v.summary.total.toNat ≤ (query.behind v).results.length ∨ (query.behind v).remaining = 0 ∨
    v.summary.returned = 0

/-- What can come of a completion, with the calls that are made. -/
inductive Turns (query : Workshop) :
    Completion → List Answered → Next Workshop (List Level) → Prop
  | failed (e : CallFailed) :
    Turns query (.pageCompleted (.error e)) [] (.done (.error .callFailed))
  | misdirected {x : Completion} (hkind : x.kind ≠ .pageCompleted) :
    Turns query x []
      (.done (.error (.wrongCompletion CompletionKind.pageCompleted.name x.kind.name)))
  | cut {summary : PageSummary} {rows : List Row} (hrows : rows.length < query.due summary) :
    Turns query (.pageCompleted (.ok summary))
      (reading (Row.calls summary.page) rows 0 ++
        [noItem summary.page rows.length, ⟨.releasePage summary.page, ()⟩])
      (.done (.error (unreadable query.page rows.length)))
  | finished {v : Visit} (hrows : v.rows.length = query.due v.summary) (hends : query.EndsAt v) :
    Turns query (.pageCompleted (.ok v.summary)) v.calls (.done (.ok (query.behind v).results))
  | onward {v : Visit} (hrows : v.rows.length = query.due v.summary) (hends : ¬ query.EndsAt v)
    (call : CallRef) :
    Turns query (.pageCompleted (.ok v.summary))
      (v.calls ++ [⟨.requestPage (query.behind v).request, call⟩]) (.await call (query.behind v))

/-- Reading all items that are due, and what comes after it. -/
theorem performs_read {query : Workshop} {v : Visit} {c c₁ : σ}
    (hrows : v.rows.length = query.due v.summary)
    (hread : Performs (fun _ _ => readItems v.summary.page (query.due v.summary) 0 ⟨[], []⟩) c
      (reading (Row.calls v.summary.page) v.rows 0) (none, v.rows.foldl Row.gather ⟨[], []⟩) c₁) :
    ∃ warnings c₂, ∀ {more step c'},
      Performs (fun _ _ =>
        if v.summary.total.toNat ≤ (query.behind v).results.length ∨
            (query.behind v).remaining = 0 ∨ v.summary.returned = 0 then
          pure (⟨.done (.ok (query.behind v).results), warnings⟩ : Step)
        else (query.behind v).requestPage warnings) c₂ more step c' →
      Performs (fun _ _ => query.read v.summary) c (v.calls ++ more) step c' := by
  obtain ⟨⟨⟩, c₂, hrelease⟩ := Performs.make (.releasePage v.summary.page) c₁
  have hdue : min query.remaining v.summary.returned.toNat = v.rows.length := hrows.symm
  have hresults : query.results ++ (v.rows.foldl Row.gather ⟨[], []⟩).entries.reverse =
      (query.behind v).results := by
    rw [Row.entries_foldl_gather, List.append_nil, List.reverse_reverse]
    rfl
  refine ⟨(v.rows.foldl Row.gather ⟨[], []⟩).warnings.reverse, c₂, fun hrest => ?_⟩
  rw [Visit.calls, List.append_assoc]
  refine hread.bind (hrelease.bind ?_)
  dsimp only
  rw [hresults, hdue]
  exact hrest

theorem turns_read (query : Workshop) (summary : PageSummary) (c : σ) :
    ∃ calls step c', Performs (fun _ _ => query.read summary) c calls step c' ∧
      query.Turns (.pageCompleted (.ok summary)) calls step.next := by
  obtain ⟨rows, c₁, ⟨hrows, hread⟩ | ⟨hrows, hread⟩⟩ :=
    (readsRows summary.page).performs (query.due summary) 0 ⟨[], []⟩ c
  · obtain ⟨warnings, c₂, hafter⟩ := performs_read (v := ⟨summary, rows⟩) hrows hread
    by_cases hends : query.EndsAt ⟨summary, rows⟩
    · have hperforms := hafter (.ite_pos hends (.pure _ c₂))
      rw [List.append_nil] at hperforms
      exact ⟨_, _, _, hperforms, .finished hrows hends⟩
    · obtain ⟨call, c₃, hrequest⟩ :=
        Performs.make (.requestPage (query.behind ⟨summary, rows⟩).request) c₂
      exact ⟨_, _, c₃, hafter (.ite_neg hends (hrequest.bind (.pure _ c₃))),
        .onward hrows hends call⟩
  · obtain ⟨⟨⟩, c₂, hrelease⟩ := Performs.make (.releasePage summary.page) c₁
    refine ⟨_ ++ ([_] ++ []), _, c₂, hread.bind (hrelease.bind (.pure _ c₂)), ?_⟩
    rw [Nat.zero_add, List.append_assoc]
    exact .cut hrows

/-- **One step of a search**, with any client and any completion. -/
theorem turns (query : Workshop) (x : Completion) (c : σ) :
    ∃ calls step c', Performs (fun _ _ => query.advance x) c calls step c' ∧
      query.Turns x calls step.next := by
  rcases x with found | download | e | summary
  · exact ⟨_, _, c, .pure _ c, .misdirected nofun⟩
  · exact ⟨_, _, c, .pure _ c, .misdirected nofun⟩
  · exact ⟨_, _, c, .pure _ c, .failed e⟩
  · exact query.turns_read summary c

end Workshop

end Query

end PlatformProxy
