import PlatformProxy.Proofs.Query.Course
import PlatformProxy.Proofs.Query.Pages

/-!
# Whole Workshop searches

A client may report any total and any number of items for a page, other ones for the next page, and
none that agree with what can be read. Every search ends all the same. It goes on behind a page only
if there was something to read of it, so at each page it wants fewer items than at the one before.

## Main definitions

* `Query.Workshop.course` — a search from its start
* `Query.Workshop.standing`, `Query.Workshop.gathered` — a search behind some pages, and what it has
  collected there
* `Query.Workshop.Suffices` — pages behind which nothing more is asked for
* `Query.Workshop.Goes`, `Query.Workshop.Stands` — what a search has done, and where it stands
* `Query.Workshop.Within`, `Query.Workshop.Numbered` — the bounds of its counters and its requests

## Main results

* `Query.Workshop.stands` — one of the states in `Stands` is reached, with any client
* `Query.Workshop.Goes.length_le` — no more pages than items
* `Query.Workshop.paging_ends_within_bounds` — how far a search goes

## Implementation notes

A search keeps its counters as natural numbers and sends the page in 32 bits. What is proved of the
counters is what makes this right. Neither of them is ever above the number of items that are
wanted, which is itself given in 32 bits, and nothing is taken off that was not there.
-/

namespace PlatformProxy

namespace Query

open Platform

namespace Workshop

variable {σ : Type} [Client σ]

/-- A Workshop search from its start, with some deliveries. -/
def course (scope : Scope) (search : Search) (c : σ) (ds : List (Delivery σ)) :
    Course Workshop (List Level) :=
  .run (fun _ _ => start scope search) (fun query x _ _ => query.advance x) c ds

/-! ### Pages that have been read -/

/-- The completion of the call for a page that has been read. -/
def Visit.completion (v : Visit) : Completion := .pageCompleted (.ok v.summary)

/-- What has been collected from some pages. -/
def gathered (visits : List Visit) : List Level := visits.flatMap Visit.levels

/-- A search that has read some pages and stands at the next. -/
def standing (scope : Scope) (search : Search) (visits : List Visit) : Workshop :=
  visits.foldl behind (opening scope search)

/-- Nothing more is asked for behind these pages: all that is wanted has been collected, or as much
as the last of them says there is, or the last of them has come back empty. -/
def Suffices (search : Search) (visits : List Visit) : Prop :=
  search.maxResults.toNat ≤ (gathered visits).length ∨
    ∃ last ∈ visits.getLast?,
      last.summary.total.toNat ≤ (gathered visits).length ∨ last.summary.returned = 0

/-- The request for a page. -/
def pageRequest (scope : Scope) (search : Search) (page : UInt32) : PageRequest where
  order := .newestFirst
  matching := .readyToUse
  creatorApp := scope.app
  consumerApp := scope.app
  page := page
  requiredTags := scope.requiredTags
  matchAnyTag := true
  searchText := search.searchText.filter fun text => !text.isEmpty

section Standing

variable (scope : Scope) (search : Search) (visits : List Visit) (v : Visit)

theorem gathered_concat : gathered (visits ++ [v]) = gathered visits ++ v.levels := by
  rw [gathered, List.flatMap_append]
  simp [gathered]

theorem length_gathered_concat :
    (gathered (visits ++ [v])).length = (gathered visits).length + v.rows.length := by
  rw [gathered_concat, List.length_append, Visit.levels, List.length_map]

theorem standing_concat :
    standing scope search (visits ++ [v]) = (standing scope search visits).behind v := by
  rw [standing, List.foldl_append]
  rfl

/-- Where a search stands is a matter of what it has collected. -/
theorem standing_eq : standing scope search visits =
    { opening scope search with
      page := visits.length + 1
      remaining := search.maxResults.toNat - (gathered visits).length
      results := gathered visits } := by
  induction visits using List.reverseRecOn with
  | nil => rfl
  | append_singleton visits v ih =>
    rw [standing_concat, ih, length_gathered_concat, gathered_concat]
    simp only [behind, List.length_append, List.length_singleton, Nat.sub_sub]

theorem request_standing : (standing scope search visits).request =
    pageRequest scope search (UInt32.ofNat (visits.length + 1)) := by
  rw [standing_eq]
  rfl

theorem suffices_nil : Suffices search [] ↔ search.maxResults.toNat = 0 := by
  simp [Suffices, gathered]

theorem suffices_concat :
    Suffices search (visits ++ [v]) ↔ (standing scope search visits).EndsAt v := by
  rw [EndsAt, ← standing_concat, standing_eq, Suffices, List.getLast?_concat]
  dsimp only
  rw [Nat.sub_eq_zero_iff_le]
  simp only [Option.mem_some_iff, exists_eq_left']
  exact or_left_comm

end Standing

/-! ### All pages -/

/-- A search that waits takes one more step. -/
theorem course_concat {scope : Scope} {search : Search} {c : σ} {ds : List (Delivery σ)}
    {steps : List (List Answered)} {call : CallRef} {query : Workshop}
    (h : course scope search c ds = ⟨steps, .await call query⟩) (d : Delivery σ) :
    ∃ calls next, course scope search c (ds ++ [d]) = ⟨steps ++ [calls], next⟩ ∧
      query.Turns d.completion calls next := by
  obtain ⟨calls, step, c', hperforms, hturns⟩ := query.turns d.completion d.client
  exact ⟨calls, step.next, Course.run_concat_of_await h hperforms, hturns⟩

variable (scope : Scope) (search : Search)

/-- A search reads pages to their ends and goes on behind each of them, as long as none of them is
the last. The calls of its steps, and the call it waits for. -/
inductive Goes : List Visit → List (List Answered) → CallRef → Prop
  | opening (hsome : search.maxResults.toNat ≠ 0) (call : CallRef) :
    Goes [] [[⟨.requestPage (opening scope search).request, call⟩]] call
  | onward {visits : List Visit} {steps : List (List Answered)} {last : CallRef}
    (h : Goes visits steps last) {v : Visit}
    (hrows : v.rows.length = (standing scope search visits).due v.summary)
    (hends : ¬ (standing scope search visits).EndsAt v) (call : CallRef) :
    Goes (visits ++ [v])
      (steps ++ [v.calls ++
        [⟨.requestPage (standing scope search (visits ++ [v])).request, call⟩]]) call

/-- What a search has done when it has been given some completions. -/
inductive Stands : List Completion → Course Workshop (List Level) → Prop
  | nothing (hnone : search.maxResults.toNat = 0) (xs : List Completion) :
    Stands xs ⟨[[]], .done (.ok [])⟩
  | waiting {visits : List Visit} {steps : List (List Answered)} {call : CallRef}
    (h : Goes scope search visits steps call) :
    Stands (visits.map Visit.completion) ⟨steps, .await call (standing scope search visits)⟩
  | replied {visits : List Visit} {steps : List (List Answered)} {call : CallRef}
    (h : Goes scope search visits steps call) {x : Completion} {calls : List Answered}
    {reply : Except Error (List Level)}
    (hturns : (standing scope search visits).Turns x calls (.done reply))
    (rest : List Completion) :
    Stands (visits.map Visit.completion ++ x :: rest) ⟨steps ++ [calls], .done reply⟩

theorem stands_begin (c : σ) : Stands scope search [] (course scope search c []) := by
  by_cases hsome : search.maxResults.toNat = 0
  · have hstart : Program.Performs (fun _ _ => start scope search) c [] (.done []) c :=
      .ite_pos hsome (.pure _ c)
    rw [course, Course.run, List.foldl_nil, Course.begin_eq hstart]
    exact .nothing hsome []
  · obtain ⟨call, c', hrequest⟩ :=
      Program.Performs.make (.requestPage (opening scope search).request) c
    have hstart : Program.Performs (fun _ _ => start scope search) c
        [⟨.requestPage (opening scope search).request, call⟩]
        ⟨.await call (opening scope search), []⟩ c' :=
      .ite_neg hsome (hrequest.bind (.pure _ c'))
    rw [course, Course.run, List.foldl_nil, Course.begin_eq hstart]
    exact .waiting (.opening hsome call)

/-- **What a search has done**, with any client. -/
theorem stands (c : σ) (ds : List (Delivery σ)) :
    Stands scope search (ds.map Delivery.completion) (course scope search c ds) := by
  induction ds using List.reverseRecOn with
  | nil => exact stands_begin scope search c
  | append_singleton ds d ih =>
    rw [List.map_append, List.map_singleton]
    generalize hcourse : course scope search c ds = before at ih
    generalize ds.map Delivery.completion = xs at ih
    have hdone : ∀ {reply}, before.next = .done reply →
        course scope search c (ds ++ [d]) = before := fun h =>
      (Course.run_append_of_done ((congrArg Course.next hcourse).trans h) [d]).trans hcourse
    cases ih with
    | nothing hnone =>
      rw [hdone rfl]
      exact .nothing hnone _
    | replied h hturns rest =>
      rw [hdone rfl, List.append_assoc]
      exact .replied h hturns _
    | @waiting visits steps call h =>
      obtain ⟨calls, next, hnext, hturns⟩ := course_concat hcourse d
      rw [hnext]
      generalize d.completion = x at hturns
      cases next with
      | done reply => exact .replied h hturns []
      | await call' query =>
        cases hturns with
        | @onward v hrows hends _ =>
          have hwaiting := Stands.waiting (h.onward hrows hends call')
          rw [List.map_append, standing_concat] at hwaiting
          exact hwaiting

/-! ### Bounds -/

/-- The requests for pages among some calls. -/
def requested (calls : List Answered) : List PageRequest :=
  calls.filterMap fun answered =>
    match answered.call with
    | .requestPage request => some request
    | _ => none

section Requests

variable {search : Search} {visits : List Visit}

theorem requested_append (calls more : List Answered) :
    requested (calls ++ more) = requested calls ++ requested more :=
  List.filterMap_append

theorem requested_reading (page : PageRef) (rows : List Row) (index : Nat) :
    requested (reading (Row.calls page) rows index) = [] := by
  rw [requested, List.filterMap_eq_nil_iff]
  intro answered hmem
  obtain ⟨⟨row, i⟩, -, hrow⟩ := List.mem_flatMap.mp hmem
  simp only [Row.calls, List.mem_cons, List.not_mem_nil, or_false] at hrow
  obtain rfl | rfl | rfl := hrow <;> rfl

theorem requested_visit (v : Visit) : requested v.calls = [] := by
  rw [Visit.calls, requested_append, requested_reading]
  rfl

/-- Nothing is asked for in the step that comes to the reply. -/
theorem requested_of_turns {query : Workshop} {x : Completion} {calls : List Answered}
    {reply : Except Error (List Level)} (h : query.Turns x calls (.done reply)) :
    requested calls = [] := by
  cases h with
  | failed | misdirected => rfl
  | cut =>
    rw [requested_append, requested_reading]
    rfl
  | finished => exact requested_visit _

theorem Goes.requested_eq {scope : Scope} {steps : List (List Answered)} {call : CallRef}
    (h : Goes scope search visits steps call) : requested steps.flatten =
      (List.range' 1 (visits.length + 1)).map fun page =>
        pageRequest scope search (UInt32.ofNat page) := by
  induction h with
  | opening => rfl
  | @onward visits steps last _ v _ _ call ih =>
    have hlast : requested [⟨.requestPage (standing scope search (visits ++ [v])).request, call⟩] =
        [pageRequest scope search (UInt32.ofNat (visits.length + 1 + 1))] := by
      rw [request_standing, List.length_append]
      rfl
    have hrange : List.range' 1 (visits.length + 1 + 1) =
        List.range' 1 (visits.length + 1) ++ [visits.length + 1 + 1] := by
      rw [List.range'_1_concat, Nat.add_comm 1]
    rw [List.flatten_concat, requested_append, requested_append, requested_visit, ih, hlast,
      List.length_append, List.length_singleton, hrange, List.map_append]
    rfl

end Requests

/-- The counters of a search at some page. Both are at most the number of items that are wanted, so
neither of them leaves its 32 bits. -/
structure Within (search : Search) (query : Workshop) : Prop where
  page_le : query.page ≤ search.maxResults.toNat
  remaining_pos : 1 ≤ query.remaining
  account : query.remaining + query.results.length = search.maxResults.toNat

section Goes

variable {scope : Scope} {search : Search} {visits : List Visit} {steps : List (List Answered)}
  {call : CallRef}

theorem Goes.length_steps (h : Goes scope search visits steps call) :
    steps.length = visits.length + 1 := by
  induction h with
  | opening => rfl
  | onward _ _ _ _ ih =>
    rw [List.length_append, List.length_append, ih]
    rfl

theorem Goes.not_suffices (h : Goes scope search visits steps call) :
    ¬ Suffices search visits := by
  cases h with
  | opening hsome => rwa [suffices_nil]
  | onward _ _ hends => rwa [suffices_concat scope]

/-- A search that goes on behind a page has read something of it. -/
theorem one_le_length_rows {query : Workshop} {v : Visit}
    (hrows : v.rows.length = query.due v.summary) (hremaining : 1 ≤ query.remaining)
    (hends : ¬ query.EndsAt v) : 1 ≤ v.rows.length := by
  have hreturned : v.summary.returned.toNat ≠ 0 := fun h =>
    hends (.inr (.inr (UInt32.toNat_inj.mp h)))
  rw [hrows, due]
  omega

theorem Goes.length_gathered_lt (h : Goes scope search visits steps call) :
    (gathered visits).length < search.maxResults.toNat :=
  Nat.lt_of_not_le fun hle => h.not_suffices (.inl hle)

/-- **Every page that was read has given something**, so there are no more of them than items. -/
theorem Goes.length_le (h : Goes scope search visits steps call) :
    visits.length ≤ (gathered visits).length := by
  induction h with
  | opening => exact Nat.zero_le _
  | @onward visits steps last h v hrows hends call ih =>
    have hremaining : 1 ≤ (standing scope search visits).remaining := by
      rw [standing_eq]
      exact Nat.sub_pos_of_lt h.length_gathered_lt
    have hread := one_le_length_rows hrows hremaining hends
    rw [length_gathered_concat, List.length_append, List.length_singleton]
    omega

theorem Goes.within (h : Goes scope search visits steps call) :
    Within search (standing scope search visits) := by
  have hlt := h.length_gathered_lt
  have hle := h.length_le
  rw [standing_eq]
  constructor <;> dsimp only <;> omega

end Goes

/-- Requests for pages: they are numbered from one on, they differ in nothing else, and there are
no more of them than items are wanted. -/
structure Numbered (scope : Scope) (search : Search) (requests : List PageRequest) : Prop where
  length_le : requests.length ≤ search.maxResults.toNat
  pages : requests.map (fun request => request.page.toNat) = List.range' 1 requests.length
  alike : ∀ request ∈ requests, request = pageRequest scope search request.page

section Bounds

variable {scope search}
variable {xs : List Completion} {course : Course Workshop (List Level)}

theorem numbered_range {n : Nat} (hn : n ≤ search.maxResults.toNat) :
    Numbered scope search
      ((List.range' 1 n).map fun page => pageRequest scope search (UInt32.ofNat page)) := by
  have hmax := search.maxResults.toNat_lt_size
  refine ⟨by simpa using hn, ?_, ?_⟩
  · rw [List.map_map, List.length_map, List.length_range']
    refine (List.map_congr_left fun page hpage => ?_).trans (List.map_id _)
    have hlt := (List.mem_range'_1.mp hpage).2
    exact UInt32.toNat_ofNat_of_lt' (by omega)
  · intro request hmem
    obtain ⟨page, -, rfl⟩ := List.mem_map.mp hmem
    rfl

theorem Goes.numbered {visits : List Visit} {steps : List (List Answered)} {call : CallRef}
    (h : Goes scope search visits steps call) :
    Numbered scope search (requested steps.flatten) := by
  rw [h.requested_eq]
  exact numbered_range (Nat.lt_of_le_of_lt h.length_le h.length_gathered_lt)

theorem Stands.numbered (h : Stands scope search xs course) :
    Numbered scope search (requested course.steps.flatten) := by
  cases h with
  | nothing => exact numbered_range (Nat.zero_le _)
  | waiting h => exact h.numbered
  | replied h hturns =>
    rw [List.flatten_concat, requested_append, requested_of_turns hturns, List.append_nil]
    exact h.numbered

theorem Stands.length_le (h : Stands scope search xs course) {levels : List Level}
    (hlevels : course.next = .done (.ok levels)) : levels.length ≤ search.maxResults.toNat := by
  cases h with
  | nothing => cases hlevels; exact Nat.zero_le _
  | waiting => cases hlevels
  | @replied visits _ _ h _ _ _ hturns =>
    cases hlevels
    cases hturns with
    | @finished v hrows _ =>
      have hlt := h.length_gathered_lt
      rw [← standing_concat, standing_eq]
      rw [due, standing_eq] at hrows
      dsimp only at hrows ⊢
      rw [length_gathered_concat]
      omega

theorem Stands.exists_reply (h : Stands scope search xs course)
    (hmany : search.maxResults.toNat ≤ xs.length) : ∃ reply, course.next = .done reply := by
  cases h with
  | nothing | replied => exact ⟨_, rfl⟩
  | @waiting visits _ _ h =>
    have hlt := h.length_gathered_lt
    have hle := h.length_le
    rw [List.length_map] at hmany
    omega

theorem Stands.within (h : Stands scope search xs course) {call : CallRef} {query : Workshop}
    (hawait : course.next = .await call query) :
    Within search query ∧ query.page = (requested course.steps.flatten).length := by
  cases h with
  | nothing | replied => cases hawait
  | @waiting visits _ _ h =>
    cases hawait
    refine ⟨h.within, ?_⟩
    rw [h.requested_eq, List.length_map, List.length_range', standing_eq]

end Bounds

/-- **Searches end, within bounds.** Whatever a client reports, and whatever completions it gives, a
search asks for no more pages than items are wanted. The pages are numbered from one on, and the
requests differ in nothing else. At each page the number of items still wanted and of those it has
make up what was wanted, and something is still wanted. Going on to the next page takes off what was
read of the last, which is something and no more than was still wanted. So a search has its reply
after as many completions as items are wanted, and no more items than that in it. -/
theorem paging_ends_within_bounds (c : σ) (ds : List (Delivery σ)) :
    Numbered scope search (requested (course scope search c ds).steps.flatten) ∧
      (∀ call query, (course scope search c ds).next = .await call query →
        Within search query ∧
        query.page = (requested (course scope search c ds).steps.flatten).length ∧
        ∀ d call' query', (course scope search c (ds ++ [d])).next = .await call' query' →
          ∃ summary, d.completion = .pageCompleted (.ok summary) ∧ 1 ≤ query.due summary ∧
            query'.remaining + query.due summary = query.remaining ∧
            query'.page = query.page + 1) ∧
      (∀ levels, (course scope search c ds).next = .done (.ok levels) →
        levels.length ≤ search.maxResults.toNat) ∧
      (search.maxResults.toNat ≤ ds.length →
        ∃ reply, (course scope search c ds).next = .done reply) := by
  have hstands := stands scope search c ds
  refine ⟨hstands.numbered, fun call query hawait => ?_, fun _ => hstands.length_le, fun hmany =>
    hstands.exists_reply (by rwa [List.length_map])⟩
  obtain ⟨hwithin, hpage⟩ := hstands.within hawait
  refine ⟨hwithin, hpage, fun d call' query' hawait' => ?_⟩
  obtain ⟨calls, next, hnext, hturns⟩ := course_concat
    (show course scope search c ds = ⟨_, .await call query⟩ by rw [← hawait]) d
  rw [hnext] at hawait'
  cases hawait'
  generalize d.completion = x at hturns
  cases hturns with
  | @onward v hrows hends _ =>
    have hread := one_le_length_rows hrows hwithin.remaining_pos hends
    rw [hrows] at hread
    refine ⟨v.summary, rfl, hread, ?_, rfl⟩
    rw [behind, hrows]
    exact Nat.sub_add_cancel (Nat.min_le_left _ _)

end Workshop

end Query

end PlatformProxy
