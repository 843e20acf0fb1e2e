import PlatformProxy.Proofs.Platform.World
import PlatformProxy.Proofs.Query.Steps

/-!
# The calls of the simulator

Every call that a query makes on the simulator puts one completion in its queue, under a handle
that has just been drawn, and opens at most one download or page, which the completion names. Every
completion that a query gets makes it release what the completion names. In between, what other
queries do to the client does not touch either.

## Main definitions

* `Platform.Simulator.Serves` — the open downloads and pages are those of certain completions
* `Platform.Simulator.Issues` — what a call does to the client
* `Platform.Simulator.release` — the client without what a completion has handed over
* `Platform.Simulator.Leads` — a query with its completion on the way comes to some outcome
* `Platform.Simulator.Answers` — a step comes to an outcome, at once or later

## Main results

* `Platform.Simulator.answers_start` — the query of a command comes to the outcome of the command
* `Platform.Simulator.Leads.answers_advance` — a query comes to the same outcome after each step
* `Platform.Simulator.Leads.of_issues`, `Platform.Simulator.Leads.of_release` — whatever other
  queries do
-/

namespace PlatformProxy

open Platform Query Session

namespace Platform

namespace Completion

/-- The rows that a completion hands over. -/
def download? : Completion → Option DownloadRef
  | .downloaded (.ok download) => some download.entries
  | _ => none

/-- The page that a completion hands over. -/
def page? : Completion → Option PageRef
  | .pageCompleted (.ok summary) => some summary.page
  | _ => none

end Completion

end Platform

namespace Session

/-- The kind of completion that a query waits for. -/
def Task.awaited : Task → CompletionKind
  | .leaderboard query => query.stage.awaited
  | .workshop _ => .pageCompleted

end Session

namespace Platform

namespace Simulator

/-- The client holds what these completions hand over, and nothing else. -/
structure Serves (c : Simulator) (xs : List Completion) : Prop where
  downloads : Keyed.Holds DownloadRef.id c.lastId c.downloads (xs.filterMap Completion.download?)
  pages : Keyed.Holds PageRef.id c.lastId c.pages (xs.filterMap Completion.page?)

/-- What a call does to a client. -/
structure Issues (c c' : Simulator) (call : CallRef) (x : Completion) : Prop where
  world : c'.world = c.world
  isStarted : c'.isStarted = c.isStarted
  fresh : c.lastId < call.id
  drawn : call.id = c'.lastId
  completions : c'.completions = c.completions ++ [(call, x)]
  downloads : Keyed.Grows DownloadRef.id c.lastId c'.lastId c.downloads x.download? c'.downloads
  pages : Keyed.Grows PageRef.id c.lastId c'.lastId c.pages x.page? c'.pages

/-- The client without what a completion has handed over. -/
def release (c : Simulator) (x : Completion) : Simulator :=
  { c with
    downloads := Keyed.without x.download? c.downloads
    pages := Keyed.without x.page? c.pages }

/-- A query whose completion is on the way comes to an outcome. -/
inductive Leads (c : Simulator) : Task → Completion → Outcome → Prop
  | finding (name : String) (selector : Selector) :
    Leads c (.leaderboard ⟨name, selector, .finding⟩) (.boardFound (c.world.foundBoard name))
      ((c.world.standings name selector).map .leaderboard)
  | noDownload (name : String) (selector : Selector) (total : Int32) :
    Leads c (.leaderboard ⟨name, selector, .downloading total⟩) (.downloaded (.error {}))
      (.error .callFailed)
  | download (name : String) (selector : Selector) (total : Int32) {entries : DownloadRef}
    {rows : List Entry} (h : c.rowsOf? entries = some rows) :
    Leads c (.leaderboard ⟨name, selector, .downloading total⟩)
      (.downloaded (.ok ⟨entries, Int32.ofNat rows.length⟩))
      ((c.world.readRows name selector total rows).map .leaderboard)
  | noPage (query : Workshop) :
    Leads c (.workshop query) (.pageCompleted (.error {})) (.error .callFailed)
  | page (query : Workshop) {page : PageRef} (hfails : c.world.fails .requestPage = false)
    (h : c.itemsOf? page = some (c.world.page query.request)) :
    Leads c (.workshop query) (.pageCompleted (.ok (c.world.summary query.request page)))
      ((c.world.search query).map .workshop)

theorem Leads.kind {c : Simulator} {task : Task} {x : Completion} {outcome : Outcome}
    (h : c.Leads task x outcome) : x.kind = task.awaited := by
  cases h <;> rfl

/-- A step that leaves the client in this state, or makes a call in it, comes to an outcome. -/
inductive Answers (c : Simulator) (outcome : Outcome) : Progress × Simulator → Prop
  | done : Answers c outcome (.done outcome, c)
  | await {c' : Simulator} {call : CallRef} {task : Task} {x : Completion}
    (hissues : c.Issues c' call x) (hleads : c'.Leads task x outcome) :
    Answers c outcome (.await call task, c')

/-! ### Calls -/

theorem issues_enqueue (c : Simulator) {x : Completion} (hdownload : x.download? = none)
    (hpage : x.page? = none) : c.Issues (c.enqueue x).2 (c.enqueue x).1 x where
  world := rfl
  isStarted := rfl
  fresh := Nat.lt_succ_self _
  drawn := rfl
  completions := rfl
  downloads := by
    rw [hdownload]
    exact .same
  pages := by
    rw [hpage]
    exact .same

theorem run_collect_of_isStarted {c : Simulator} (h : c.isStarted = true) :
    Client.collect.run c = (c.completions, { c with completions := [] }) :=
  if_pos h

theorem run_collect_of_not_isStarted {c : Simulator} (h : c.isStarted = false) :
    Client.collect.run c = ([], c) :=
  if_neg (ne_true_of_eq_false h)

section Failing

variable {c : Simulator}

theorem download_of_fails (h : c.world.fails .download = true) (rows : List Entry) :
    c.download rows = c.enqueue (.downloaded (.error {})) :=
  if_pos h

theorem download_of_not_fails (h : c.world.fails .download = false) (rows : List Entry) :
    c.download rows =
      ({ c with lastId := c.lastId + 1, downloads := (⟨c.lastId + 1⟩, rows) :: c.downloads } :
        Simulator).enqueue (.downloaded (.ok ⟨⟨c.lastId + 1⟩, Int32.ofNat rows.length⟩)) :=
  if_neg (ne_true_of_eq_false h)

theorem requestPage_of_fails (h : c.world.fails .requestPage = true) (request : PageRequest) :
    c.requestPage request =
      ({ c with pagesRequested := c.pagesRequested + 1 } : Simulator).enqueue
        (.pageCompleted (.error {})) :=
  if_pos h

theorem requestPage_of_not_fails (h : c.world.fails .requestPage = false)
    (request : PageRequest) :
    c.requestPage request =
      ({ c with
          pagesRequested := c.pagesRequested + 1
          lastId := c.lastId + 1
          pages := (⟨c.lastId + 1⟩, c.world.page request) :: c.pages } :
        Simulator).enqueue (.pageCompleted (.ok (c.world.summary request ⟨c.lastId + 1⟩))) :=
  if_neg (ne_true_of_eq_false h)

end Failing

theorem exists_issues_download (c : Simulator) (name : String) (selector : Selector)
    (total : Int32) (rows : List Entry) :
    ∃ x, c.Issues (c.download rows).2 (c.download rows).1 x ∧
      (c.download rows).2.Leads (.leaderboard ⟨name, selector, .downloading total⟩) x
        ((if c.world.fails .download then .error .callFailed
          else c.world.readRows name selector total rows).map .leaderboard) := by
  cases hfails : c.world.fails .download with
  | true =>
    rw [download_of_fails hfails]
    exact ⟨_, c.issues_enqueue rfl rfl, .noDownload name selector total⟩
  | false =>
    rw [download_of_not_fails hfails]
    refine ⟨_, ⟨rfl, rfl, Nat.lt_succ_of_lt (Nat.lt_succ_self _), rfl, rfl, ?_, .same⟩, ?_⟩
    · exact .cons rows (Nat.lt_succ_self _) (Nat.le_succ _)
    · refine .download name selector total ?_
      simp [rowsOf?, enqueue, draw]

theorem exists_issues_requestPage (c : Simulator) (query : Workshop) :
    ∃ x, c.Issues (c.requestPage query.request).2 (c.requestPage query.request).1 x ∧
      (c.requestPage query.request).2.Leads (.workshop query) x
        ((c.world.search query).map .workshop) := by
  cases hfails : c.world.fails .requestPage with
  | true =>
    have hsearch : c.world.search query = .error .callFailed := by
      rw [World.search, if_pos hfails]
    rw [requestPage_of_fails hfails, hsearch]
    exact ⟨_, ⟨rfl, rfl, Nat.lt_succ_self _, rfl, rfl, .same, .same⟩, .noPage query⟩
  | false =>
    rw [requestPage_of_not_fails hfails]
    refine ⟨_, ⟨rfl, rfl, Nat.lt_succ_of_lt (Nat.lt_succ_self _), rfl, rfl, .same, ?_⟩, ?_⟩
    · exact .cons _ (Nat.lt_succ_self _) (Nat.le_succ _)
    · refine .page query hfails ?_
      simp only [itemsOf?, enqueue, draw, decide_true, List.find?_cons_of_pos, Option.map_some]
      rfl

/-! ### What other queries do -/

theorem Leads.congr {c c' : Simulator} {task : Task} {x : Completion} {outcome : Outcome}
    (h : c.Leads task x outcome) (hworld : c'.world = c.world)
    (hrows : ∀ d ∈ x.download?, c'.rowsOf? d = c.rowsOf? d)
    (hitems : ∀ p ∈ x.page?, c'.itemsOf? p = c.itemsOf? p) : c'.Leads task x outcome := by
  cases h with
  | finding name selector =>
    rw [← hworld]
    exact .finding name selector
  | noDownload name selector total => exact .noDownload name selector total
  | download name selector total h =>
    rw [← hworld]
    exact .download name selector total ((hrows _ rfl).trans h)
  | noPage query => exact .noPage query
  | page query hfails h =>
    rw [← hworld] at hfails h ⊢
    exact .page query hfails ((hitems _ rfl).trans h)

theorem Serves.perm {c : Simulator} {xs ys : List Completion} (h : c.Serves xs)
    (hperm : xs.Perm ys) : c.Serves ys :=
  ⟨h.downloads.perm_keys (hperm.filterMap _), h.pages.perm_keys (hperm.filterMap _)⟩

theorem filterMap_cons_eq {α β : Type} (f : α → Option β) (a : α) (l : List α) :
    (a :: l).filterMap f = (f a).toList ++ l.filterMap f := by
  cases h : f a <;> simp [h]

/-- **A call opens what its completion hands over.** -/
theorem Serves.of_issues {c c' : Simulator} {call : CallRef} {x : Completion}
    {xs : List Completion} (h : c.Serves xs) (hissues : c.Issues c' call x) :
    c'.Serves (x :: xs) := by
  have hlast : c.lastId ≤ c'.lastId := by
    rw [← hissues.drawn]
    exact Nat.le_of_lt hissues.fresh
  refine ⟨?_, ?_⟩ <;> rw [filterMap_cons_eq]
  · exact h.downloads.grow hlast hissues.downloads
  · exact h.pages.grow hlast hissues.pages

/-- **A completion releases what it has handed over.** -/
theorem Serves.release {c : Simulator} {x : Completion} {xs : List Completion}
    (h : c.Serves (x :: xs)) : (c.release x).Serves xs := by
  obtain ⟨hdownloads, hpages⟩ := h
  rw [filterMap_cons_eq] at hdownloads hpages
  exact ⟨hdownloads.without, hpages.without⟩

theorem Leads.of_issues {c c' : Simulator} {task : Task} {x y : Completion} {outcome : Outcome}
    {call : CallRef} {xs : List Completion} (h : c.Leads task x outcome) (hserves : c.Serves xs)
    (hx : x ∈ xs) (hissues : c.Issues c' call y) : c'.Leads task x outcome := by
  refine h.congr hissues.world (fun d hd => ?_) (fun p hp => ?_)
  · rw [rowsOf?, hserves.downloads.find?_of_grows hissues.downloads]
    · rfl
    · exact List.mem_filterMap.mpr ⟨x, hx, hd⟩
  · rw [itemsOf?, hserves.pages.find?_of_grows hissues.pages]
    · rfl
    · exact List.mem_filterMap.mpr ⟨x, hx, hp⟩

theorem Leads.of_release {c : Simulator} {task : Task} {x y : Completion} {outcome : Outcome}
    {xs : List Completion} (h : c.Leads task x outcome) (hserves : c.Serves (y :: xs))
    (hx : x ∈ xs) : (c.release y).Leads task x outcome := by
  obtain ⟨hdownloads, hpages⟩ := hserves
  rw [filterMap_cons_eq] at hdownloads hpages
  refine h.congr rfl (fun d hd => ?_) (fun p hp => ?_)
  · have hne : y.download? ≠ some d := fun hy => by
      have hnodup := hdownloads.nodup_keys
      rw [hy] at hnodup
      exact (List.nodup_cons.mp hnodup).1 (List.mem_filterMap.mpr ⟨x, hx, hd⟩)
    rw [rowsOf?, release, Keyed.find?_without hne]
    rfl
  · have hne : y.page? ≠ some p := fun hy => by
      have hnodup := hpages.nodup_keys
      rw [hy] at hnodup
      exact (List.nodup_cons.mp hnodup).1 (List.mem_filterMap.mpr ⟨x, hx, hp⟩)
    rw [itemsOf?, release, Keyed.find?_without hne]
    rfl

/-! ### Steps of queries -/

/-- **The query of a command comes to the outcome of the command.** -/
theorem answers_start (c : Simulator) (scope : Scope) (command : Command) :
    c.Answers (c.world.reply scope command) ((command.start scope).run c) := by
  cases command with
  | leaderboard name selector =>
    exact .await (c.issues_enqueue rfl rfl) (.finding name selector)
  | personaName user => exact .done
  | workshop search =>
    rw [Command.start, Transition.run_map, Workshop.start, World.reply]
    split
    · exact .done
    · obtain ⟨x, hissues, hleads⟩ := c.exists_issues_requestPage (Workshop.opening scope search)
      exact .await hissues hleads

theorem answers_download (c : Simulator) (name : String) (selector : Selector) (board : BoardRef) :
    c.Answers ((c.world.standingsOf name selector board).map .leaderboard)
      ((Task.advance (.boardFound (.ok (some board)))
        (.leaderboard ⟨name, selector, .finding⟩)).run c) := by
  obtain ⟨x, hissues, hleads⟩ := c.exists_issues_download name selector (c.world.entryCount board)
    (c.world.selected selector board)
  cases selector <;> exact .await hissues hleads

theorem answers_readRows {c : Simulator} (name : String) (selector : Selector) (total : Int32)
    {entries : DownloadRef} {rows : List Entry} (h : c.rowsOf? entries = some rows) :
    (c.releaseEntries entries).Answers
      ((c.world.readRows name selector total rows).map .leaderboard)
      ((Task.advance (.downloaded (.ok ⟨entries, Int32.ofNat rows.length⟩))
        (.leaderboard ⟨name, selector, .downloading total⟩)).run c) := by
  obtain ⟨hrows, hbound⟩ := wanted_le selector rows.length
  have hread := run_readEntries h (selector.wanted (Int32.ofNat rows.length)) 0 []
    (by rwa [Nat.zero_add]) (by rwa [Nat.zero_add])
  have hstep : (Task.advance (.downloaded (.ok ⟨entries, Int32.ofNat rows.length⟩))
      (.leaderboard ⟨name, selector, .downloading total⟩)).run c =
      let r := (Leaderboard.read ⟨name, selector, .downloading total⟩ total
        ⟨entries, Int32.ofNat rows.length⟩).run c
      (.ofStep .leaderboard .leaderboard r.1, r.2) := rfl
  rw [hstep, Leaderboard.run_read, hread, World.readRows]
  split
  · exact .done
  · exact .done

/-- Reading a page as the platform has it. -/
theorem run_readPage {c : Simulator} (query : Workshop) {page : PageRef}
    (h : c.itemsOf? page = some (c.world.page query.request)) :
    (query.read (c.world.summary query.request page)).run c =
      let items := c.world.page query.request
      let wanted := min query.remaining items.length
      let results := query.results ++ (items.take wanted).map c.world.level
      if c.world.fails .readItem && 0 < wanted then
        (query.fail (Workshop.unreadable query.page 0) [], c.releasePage page)
      else if (c.world.total query.request).toNat ≤ results.length ∨
          query.remaining - wanted = 0 ∨ items.length = 0 then
        (.done results, c.releasePage page)
      else
        (Workshop.requestPage
          { query with page := query.page + 1, remaining := query.remaining - wanted, results }
          []).run (c.releasePage page) := by
  have hreturned := c.world.returned_toNat query.request page
  have hnone : (c.world.summary query.request page).returned = 0 ↔
      (c.world.page query.request).length = 0 := by
    rw [← hreturned, ← UInt32.toNat_inj]
    rfl
  have hlength := c.world.length_page_le query.request
  have hitems : c.itemsOf? (c.world.summary query.request page).page =
      some (c.world.page query.request) := h
  rw [Workshop.run_read, hreturned]
  dsimp only
  rw [run_readItems hitems _ 0 _ (by omega) (by omega)]
  by_cases hreads : (c.world.fails .readItem && decide
      (0 < min query.remaining (c.world.page query.request).length)) = true
  · rw [if_pos hreads, if_pos hreads]
    rfl
  · rw [if_neg hreads, if_neg hreads]
    simp only [List.append_nil, List.reverse_reverse, List.drop_zero, hnone]
    rfl

theorem answers_readPage {c : Simulator} (query : Workshop) {page : PageRef}
    (hfails : c.world.fails .requestPage = false)
    (h : c.itemsOf? page = some (c.world.page query.request)) :
    (c.releasePage page).Answers ((c.world.search query).map .workshop)
      ((Task.advance (.pageCompleted (.ok (c.world.summary query.request page)))
        (.workshop query)).run c) := by
  have hstep : (Task.advance (.pageCompleted (.ok (c.world.summary query.request page)))
      (.workshop query)).run c =
      let r := (query.read (c.world.summary query.request page)).run c
      (.ofStep .workshop .workshop r.1, r.2) := rfl
  rw [hstep, run_readPage query h, World.search, if_neg (ne_true_of_eq_false hfails)]
  dsimp only
  split
  · exact .done
  · split
    · exact .done
    · obtain ⟨x, hissues, hleads⟩ := (c.releasePage page).exists_issues_requestPage _
      exact .await hissues hleads

/-- **A query comes to the same outcome after each step**, and releases what it has been given. -/
theorem Leads.answers_advance {c : Simulator} {task : Task} {x : Completion} {outcome : Outcome}
    (h : c.Leads task x outcome) : (c.release x).Answers outcome ((task.advance x).run c) := by
  cases h with
  | finding name selector =>
    rw [World.standings]
    rcases hfound : c.world.foundBoard name with _ | _ | board
    · exact .done
    · exact .done
    · exact c.answers_download name selector board
  | noDownload name selector total => exact .done
  | download name selector total h => exact answers_readRows name selector total h
  | noPage query => exact .done
  | page query hfails h => exact answers_readPage query hfails h

end Simulator

end Platform

end PlatformProxy
