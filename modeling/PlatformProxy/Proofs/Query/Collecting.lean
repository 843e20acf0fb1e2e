import PlatformProxy.Proofs.Keyed
import PlatformProxy.Proofs.Query.Searches

/-!
# All pages or none

What a search has done can be told from the pages alone that it has read to their ends. They say
which calls it has made and which completions it has been given, whether there is a reply, and what
the reply is if the search has not failed.

## Main definitions

* `Query.Workshop.Visited` — what is called for when pages are read one after the other
* `Query.Workshop.Fails` — how a search comes to an error
* `Query.Workshop.Explains` — pages tell what a search has done

## Main results

* `Query.Workshop.Goes.visited` — pages that a search has gone behind have been read
* `Query.Workshop.all_pages_or_none` — what a search reads and replies

## Implementation notes

Pages are told apart by the completions they came with, and not by what the client calls them. A
client may give the same page for two calls, and then the search reads and releases it twice, once
for each.
-/

namespace PlatformProxy

namespace Query

open Platform

namespace Workshop

variable {σ : Type} [Client σ] (scope : Scope) (search : Search)

section Reading

variable (visits : List Visit)

/-- The next page is asked for, unless these suffice. -/
inductive Asks : List Answered → Prop
  | enough (h : Suffices search visits) : Asks []
  | next (h : ¬ Suffices search visits) (call : CallRef) :
    Asks [⟨.requestPage (pageRequest scope search (UInt32.ofNat (visits.length + 1))), call⟩]

/-- A page comes in behind others. The items of it that are still wanted are read, the page is
released, and the next one may be asked for. -/
structure Reads (v : Visit) (x : Completion) (calls : List Answered) : Prop where
  completed : x = v.completion
  all : v.rows.length =
    min (search.maxResults.toNat - (gathered visits).length) v.summary.returned.toNat
  made : ∃ asked, calls = v.calls ++ asked ∧ Asks scope search (visits ++ [v]) asked

/-- The completions of a search are those of some pages, and its steps read them one after the
other. None of them comes behind pages that suffice. -/
structure Visited (xs : List Completion) (steps : List (List Answered)) : Prop where
  opened : ∃ asked, steps[0]? = some asked ∧ Asks scope search [] asked
  visited : ∀ i v, visits[i]? = some v → ¬ Suffices search (visits.take i) ∧
    ∃ x calls, xs[i]? = some x ∧ steps[i + 1]? = some calls ∧
      Reads scope search (visits.take i) v x calls

/-- A completion behind some pages makes a search fail. If it is a page, then an item cannot be
read that is still wanted. The items before it are read, and the page is released. -/
inductive Fails : Completion → List Answered → Error → Prop
  | failed (e : CallFailed) : Fails (.pageCompleted (.error e)) [] .callFailed
  | misdirected {x : Completion} (hkind : x.kind ≠ .pageCompleted) :
    Fails x [] (.wrongCompletion "SteamUGCQueryCompleted" x.kind.name)
  /-- The item behind some items of the page. -/
  | cut {summary : PageSummary} {rows : List Row}
    (hrows : rows.length <
      min (search.maxResults.toNat - (gathered visits).length) summary.returned.toNat) :
    Fails (.pageCompleted (.ok summary))
      (reading (Row.calls summary.page) rows 0 ++
        [noItem summary.page rows.length, ⟨.releasePage summary.page, ()⟩])
      (.unreadable ("Error retrieving workshop result " ++ toString rows.length ++ " of page " ++
        toString (visits.length + 1)))

/-- The pages that a search has read to their ends explain what it has done. -/
structure Explains (xs : List Completion) (course : Course Workshop (List Level)) : Prop where
  visited : Visited scope search visits xs course.steps
  /-- It waits for a page behind them, and has been given nothing but them. -/
  waits : (∃ call query, course.next = .await call query) ↔
    ¬ Suffices search visits ∧ xs.length = visits.length
  /-- All pages or none. -/
  replies : ∀ levels, course.next = .done (.ok levels) ↔
    Suffices search visits ∧ levels = gathered visits
  /-- It has failed in the step behind them, which was its last. -/
  fails : ∀ error, course.next = .done (.error error) → ∃ x calls,
    xs[visits.length]? = some x ∧ course.steps.drop (visits.length + 1) = [calls] ∧
      Fails search visits x calls error
  /-- Without a failure, nothing has been called for besides. -/
  complete : (∀ error, course.next ≠ .done (.error error)) →
    course.steps.length = visits.length + 1

end Reading

section Explaining

variable {scope search}
variable {visits : List Visit} {xs : List Completion} {steps : List (List Answered)}

theorem Visited.append (h : Visited scope search visits xs steps) (ys : List Completion)
    (more : List (List Answered)) : Visited scope search visits (xs ++ ys) (steps ++ more) := by
  obtain ⟨asked, hasked, hasks⟩ := h.opened
  refine ⟨⟨asked, Keyed.getElem?_append_of_eq_some hasked more, hasks⟩, fun i v hv => ?_⟩
  obtain ⟨hmore, x, calls, hx, hcalls, hreads⟩ := h.visited i v hv
  exact ⟨hmore, x, calls, Keyed.getElem?_append_of_eq_some hx ys,
    Keyed.getElem?_append_of_eq_some hcalls more, hreads⟩

/-- One more page is read. -/
theorem Visited.concat (h : Visited scope search visits xs steps)
    (hxs : xs.length = visits.length) (hsteps : steps.length = visits.length + 1)
    (hmore : ¬ Suffices search visits) {v : Visit} {x : Completion} {calls : List Answered}
    (hreads : Reads scope search visits v x calls) :
    Visited scope search (visits ++ [v]) (xs ++ [x]) (steps ++ [calls]) := by
  obtain ⟨hopened, hvisited⟩ := h.append [x] [calls]
  refine ⟨hopened, fun i w hw => ?_⟩
  obtain hw | ⟨rfl, rfl⟩ := Keyed.getElem?_concat_eq_some hw
  · have hi : i ≤ visits.length := Nat.le_of_lt (List.getElem?_eq_some_iff.mp hw).1
    rw [List.take_append_of_le_length hi]
    exact hvisited i w hw
  · rw [List.take_left]
    refine ⟨hmore, x, calls, ?_, ?_, hreads⟩
    · rw [← hxs, List.getElem?_concat_length]
    · rw [← hsteps, List.getElem?_concat_length]

theorem asks_concat {v : Visit} (hends : ¬ (standing scope search visits).EndsAt v)
    (call : CallRef) : Asks scope search (visits ++ [v])
      [⟨.requestPage (standing scope search (visits ++ [v])).request, call⟩] := by
  rw [request_standing]
  exact .next (by rwa [suffices_concat scope]) call

theorem length_due {v : Visit} (h : v.rows.length = (standing scope search visits).due v.summary) :
    v.rows.length =
      min (search.maxResults.toNat - (gathered visits).length) v.summary.returned.toNat := by
  rwa [due, standing_eq] at h

/-- **A search that goes on has read each page to its end.** -/
theorem Goes.visited {call : CallRef} (h : Goes scope search visits steps call) :
    Visited scope search visits (visits.map Visit.completion) steps := by
  induction h with
  | opening hsome call => exact ⟨⟨_, rfl, .next (by rwa [suffices_nil]) call⟩, nofun⟩
  | @onward visits steps last h v hrows hends call ih =>
    rw [List.map_append]
    exact ih.concat (List.length_map _) h.length_steps h.not_suffices
      ⟨rfl, length_due hrows, _, rfl, asks_concat hends call⟩

/-- A step that fails does so for one of the reasons given. -/
theorem fails_of_turns {x : Completion} {calls : List Answered} {error : Error}
    (h : (standing scope search visits).Turns x calls (.done (.error error))) :
    Fails search visits x calls error := by
  cases h with
  | failed e => exact .failed e
  | misdirected hkind => exact .misdirected hkind
  | cut hrows =>
    rw [due, standing_eq] at hrows
    rw [standing_eq]
    exact .cut hrows

theorem replies_of_suffices (h : Suffices search visits) (levels : List Level) :
    (.done (.ok (gathered visits)) : Next Workshop (List Level)) = .done (.ok levels) ↔
      Suffices search visits ∧ levels = gathered visits := by
  constructor
  · rintro ⟨⟩
    exact ⟨h, rfl⟩
  · rintro ⟨-, rfl⟩
    rfl

/-! ### The four ways a search can stand -/

/-- No page is asked for. -/
theorem explains_nothing (hnone : search.maxResults.toNat = 0) (xs : List Completion) :
    Explains scope search [] xs ⟨[[]], .done (.ok [])⟩ where
  visited := ⟨⟨[], rfl, .enough ((suffices_nil search).mpr hnone)⟩, nofun⟩
  waits := ⟨nofun, fun h => absurd ((suffices_nil search).mpr hnone) h.1⟩
  replies := replies_of_suffices ((suffices_nil search).mpr hnone)
  fails := nofun
  complete _ := rfl

theorem Goes.explains_waiting {call : CallRef} (h : Goes scope search visits steps call)
    (query : Workshop) :
    Explains scope search visits (visits.map Visit.completion) ⟨steps, .await call query⟩ where
  visited := h.visited
  waits := ⟨fun _ => ⟨h.not_suffices, List.length_map _⟩, fun _ => ⟨call, query, rfl⟩⟩
  replies _ := ⟨nofun, fun hlevels => absurd hlevels.1 h.not_suffices⟩
  fails := nofun
  complete _ := h.length_steps

theorem Goes.explains_failure {call : CallRef} (h : Goes scope search visits steps call)
    {x : Completion} {calls : List Answered} {error : Error}
    (hfails : Fails search visits x calls error) (rest : List Completion) :
    Explains scope search visits (visits.map Visit.completion ++ x :: rest)
      ⟨steps ++ [calls], .done (.error error)⟩ where
  visited := h.visited.append _ _
  waits := by
    refine ⟨nofun, fun hwaits => absurd hwaits.2 ?_⟩
    rw [List.length_append, List.length_map, List.length_cons]
    omega
  replies _ := ⟨nofun, fun hlevels => absurd hlevels.1 h.not_suffices⟩
  fails e he := by
    cases he
    refine ⟨x, calls, ?_, ?_, hfails⟩
    · rw [List.getElem?_append_right (by simp)]
      simp
    · rw [← h.length_steps, List.drop_left]
  complete hne := absurd rfl (hne error)

theorem Goes.explains_success {call : CallRef} (h : Goes scope search visits steps call)
    {v : Visit} (hrows : v.rows.length = (standing scope search visits).due v.summary)
    (hends : (standing scope search visits).EndsAt v) (rest : List Completion) :
    Explains scope search (visits ++ [v]) (visits.map Visit.completion ++ v.completion :: rest)
      ⟨steps ++ [v.calls], .done (.ok (gathered (visits ++ [v])))⟩ := by
  have hsuffices : Suffices search (visits ++ [v]) := by rwa [suffices_concat scope]
  have hreads : Reads scope search visits v v.completion v.calls :=
    ⟨rfl, length_due hrows, [], (List.append_nil _).symm, .enough hsuffices⟩
  have hvisited := h.visited.concat (List.length_map _) h.length_steps h.not_suffices hreads
  refine ⟨?_, ?_, replies_of_suffices hsuffices, nofun, fun _ => ?_⟩
  · have happend := hvisited.append rest []
    rwa [List.append_assoc, List.append_nil] at happend
  · exact ⟨nofun, fun hwaits => absurd hsuffices hwaits.1⟩
  · rw [List.length_append, List.length_append, h.length_steps]
    rfl

end Explaining

/-- **All pages or none.** With any client, and whatever completions it is given, a search reads
pages one after the other. Of each it reads the items in order, the name of the owner and the
preview after each, up to the number of items that the page has and that are still wanted. It
releases the page behind the last of them, and only then asks for the next. It replies with all
items of all pages, in order, exactly when it comes to the first page that suffices, or if none is
wanted. Or else it replies with an error, which names the first item that cannot be read and its
page, or the completion that it did not expect, or tells of a call that failed. -/
theorem all_pages_or_none (c : σ) (ds : List (Delivery σ)) :
    ∃ visits,
      Explains scope search visits (ds.map Delivery.completion) (course scope search c ds) := by
  have hstands := stands scope search c ds
  generalize ds.map Delivery.completion = xs, course scope search c ds = course at hstands ⊢
  cases hstands with
  | nothing hnone => exact ⟨[], explains_nothing hnone _⟩
  | waiting h => exact ⟨_, h.explains_waiting _⟩
  | @replied visits _ _ h _ _ reply hturns rest =>
    cases reply with
    | error error => exact ⟨visits, h.explains_failure (fails_of_turns hturns) rest⟩
    | ok levels =>
      cases hturns with
      | @finished v hrows hends =>
        rw [← standing_concat, standing_eq]
        exact ⟨visits ++ [v], h.explains_success hrows hends rest⟩

end Workshop

end Query

end PlatformProxy
