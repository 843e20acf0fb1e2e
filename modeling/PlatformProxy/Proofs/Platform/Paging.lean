import PlatformProxy.Proofs.Platform.Calls
import PlatformProxy.Proofs.Platform.Catalog
import PlatformProxy.Proofs.Query.Driving

/-!
# Searches by pages

A search that has the platform to itself collects its catalog page by page. Before each page it has
all items of the pages before and nothing else, so where it stands depends on the number of the page
alone. It stops at the page with which it has as many items as it wants, or all there are, and with
that it has the head of the catalog.

A page leaves the client as it was, apart from two handles that have been drawn and a request that
has been counted. The whole search is therefore a repetition of one step.

## Main definitions

* `Platform.Simulator.Rested` — a client with nothing in progress
* `Platform.Simulator.opened`, `Platform.Simulator.searched` — the client while a search waits for a
  page, and after some pages
* `Query.Workshop.atPage` — where a search stands before a page
* `Query.Workshop.pages` — how many pages a search asks for

## Main results

* `Query.Workshop.drive_atPage` — from there on it comes to the head of the catalog
* `Query.Workshop.search_finds_head_of_catalog` — and so does the whole search
-/

namespace PlatformProxy

open Platform

namespace Platform

open Query

namespace Simulator

/-! ### The client of a search -/

/-- Nothing is in progress, and pages can be requested and read. -/
structure Rested (c : Simulator) : Prop where
  isStarted : c.isStarted = true
  completions : c.completions = []
  pages : c.pages = []
  requests : c.world.fails .requestPage = false
  reads : c.world.fails .readItem = false

/-- The client while a search waits for a page. -/
def opened (c : Simulator) (request : PageRequest) : Simulator :=
  { c with
    lastId := c.lastId + 2
    pagesRequested := c.pagesRequested + 1
    pages := (⟨c.lastId + 1⟩, c.world.page request) :: c.pages
    completions := c.completions ++
      [(⟨c.lastId + 2⟩, .pageCompleted (.ok (c.world.summary request ⟨c.lastId + 1⟩)))] }

/-- The client after some pages. -/
def searched (c : Simulator) (pages : Nat) : Simulator :=
  { c with lastId := c.lastId + 2 * pages, pagesRequested := c.pagesRequested + pages }

theorem Rested.searched {c : Simulator} (h : c.Rested) (pages : Nat) : (c.searched pages).Rested :=
  ⟨h.isStarted, h.completions, h.pages, h.requests, h.reads⟩

theorem searched_searched (c : Simulator) (n m : Nat) :
    (c.searched n).searched m = c.searched (n + m) := by
  simp only [searched, Nat.mul_add, Nat.add_assoc]

theorem run_requestPage {c : Simulator} (h : c.Rested) (query : Workshop)
    (warnings : List Warning) :
    (query.requestPage warnings).run c =
      (⟨.await ⟨c.lastId + 2⟩ query, warnings⟩, c.opened query.request) := by
  have hcall : c.requestPage query.request = (⟨c.lastId + 2⟩, c.opened query.request) :=
    if_neg (ne_true_of_eq_false h.requests)
  show (Step.mk (.await (c.requestPage query.request).1 query) warnings,
    (c.requestPage query.request).2) = _
  rw [hcall]

theorem run_collect_opened {c : Simulator} (h : c.Rested) (request : PageRequest) :
    Client.collect.run (c.opened request) =
      ([(⟨c.lastId + 2⟩, .pageCompleted (.ok (c.world.summary request ⟨c.lastId + 1⟩)))],
        { c.opened request with completions := [] }) := by
  rw [run_collect_of_isStarted (c := c.opened request) h.isStarted]
  simp only [opened, h.completions, List.nil_append]

/-- Reading and releasing the page brings the client back to rest. -/
theorem releasePage_opened {c : Simulator} (h : c.Rested) (request : PageRequest) :
    releasePage { c.opened request with completions := [] } ⟨c.lastId + 1⟩ = c.searched 1 := by
  simp only [releasePage, opened, searched, h.pages, h.completions]
  simp

/-- **One page of a search.** -/
theorem run_drive_page {c : Simulator} (h : c.Rested) (query : Workshop) (rounds : Nat) :
    (drive Workshop.advance (rounds + 1) (.await ⟨c.lastId + 2⟩ query)).run
        (c.opened query.request) =
      let items := c.world.page query.request
      let wanted := min query.remaining items.length
      let results := query.results ++ (items.take wanted).map c.world.level
      if (c.world.total query.request).toNat ≤ results.length ∨ query.remaining - wanted = 0 ∨
          items.length = 0 then
        (some (.ok results), c.searched 1)
      else
        let next : Workshop :=
          { query with page := query.page + 1, remaining := query.remaining - wanted, results }
        (drive Workshop.advance rounds (.await ⟨(c.searched 1).lastId + 2⟩ next)).run
          ((c.searched 1).opened next.request) := by
  have hcollect := run_collect_opened h query.request
  have hpage : itemsOf? { c.opened query.request with completions := [] } ⟨c.lastId + 1⟩ =
      some ((world { c.opened query.request with completions := [] }).page query.request) := by
    simp [itemsOf?, opened]
    rfl
  have hread : (query.advance (.pageCompleted
      (.ok (c.world.summary query.request ⟨c.lastId + 1⟩)))).run
        { c.opened query.request with completions := [] } = _ := run_readPage query hpage
  have hworld : Simulator.world { c.opened query.request with completions := [] } = c.world := rfl
  rw [hworld, h.reads, releasePage_opened h] at hread
  have hfound : ((Client.collect.run (c.opened query.request)).1.find? fun x =>
      x.1 = ⟨c.lastId + 2⟩) =
        some (⟨c.lastId + 2⟩,
          .pageCompleted (.ok (c.world.summary query.request ⟨c.lastId + 1⟩))) := by
    rw [hcollect]
    simp
  rw [run_drive_await hfound, hcollect]
  dsimp only
  rw [hread]
  simp only [Bool.false_and, Bool.false_eq_true, if_false]
  split
  · exact run_drive_done _ _ _ _
  · rw [run_requestPage (h.searched 1)]

end Simulator

end Platform

namespace Query

namespace Workshop

/-! ### Where a search stands -/

variable (w : World) (scope : Scope) (search : Search)

/-- The catalog that the search is served from. -/
def catalog : List RecordedItem := Simulator.catalog w.snapshot (opening scope search).request

/-- A search before its page `n + 1`: it has the items of `n` pages. -/
def atPage (n : Nat) : Workshop :=
  { opening scope search with
    page := n + 1
    remaining := search.maxResults.toNat - 50 * n
    results := ((catalog w scope search).take (50 * n)).map w.level }

variable {w scope search}

/-- As far as 32 bits reach, a page is where it should be. -/
theorem page_atPage {n : Nat} (hn : 50 * n < 2 ^ 32) :
    w.page (atPage w scope search n).request =
      ((catalog w scope search).drop (50 * n)).take 50 := by
  have hpage : (UInt32.ofNat (n + 1)).toNat = n + 1 := UInt32.toNat_ofNat_of_lt' (by
    show n + 1 < 2 ^ 32
    omega)
  have hstart : Simulator.pageStart (UInt32.ofNat (n + 1)) = 50 * n := by
    rw [Simulator.pageStart, hpage, Simulator.pageSize, show UInt32.size = 2 ^ 32 from rfl]
    omega
  show ((catalog w scope search).drop (Simulator.pageStart (UInt32.ofNat (n + 1)))).take 50 = _
  rw [hstart]

theorem total_atPage (hsize : (catalog w scope search).length < 2 ^ 32) (n : Nat) :
    (w.total (atPage w scope search n).request).toNat = (catalog w scope search).length :=
  UInt32.toNat_ofNat_of_lt' hsize

/-- The items of the pages so far and some items of the next page are the head of the catalog. -/
theorem results_atPage (n k : Nat) :
    (atPage w scope search n).results ++
        ((((catalog w scope search).drop (50 * n)).take 50).take k).map w.level =
      ((catalog w scope search).take (50 * n + min k 50)).map w.level := by
  rw [List.take_take, List.take_add, List.map_append]
  rfl

/-- A page of a search that wants more than it has. -/
theorem run_drive_atPage {c : Simulator} (h : c.Rested)
    (hsize : (catalog c.world scope search).length < 2 ^ 32) {n : Nat}
    (hn : 50 * n < search.maxResults.toNat) (rounds : Nat) :
    (Query.drive advance (rounds + 1)
        (.await ⟨c.lastId + 2⟩ (atPage c.world scope search n))).run
        (c.opened (atPage c.world scope search n).request) =
      let items := catalog c.world scope search
      if min search.maxResults.toNat items.length ≤ 50 * (n + 1) then
        (some (.ok ((items.take search.maxResults.toNat).map c.world.level)), c.searched 1)
      else
        (Query.drive advance rounds
          (.await ⟨(c.searched 1).lastId + 2⟩ (atPage c.world scope search (n + 1)))).run
          ((c.searched 1).opened (atPage c.world scope search (n + 1)).request) := by
  have hbound := search.maxResults.toNat_lt
  have hremaining : (atPage c.world scope search n).remaining =
      search.maxResults.toNat - 50 * n := rfl
  rw [Simulator.run_drive_page h, page_atPage (by omega), total_atPage hsize, hremaining]
  dsimp only
  rw [results_atPage, List.length_map, List.length_take, List.length_take, List.length_drop]
  set total := (catalog c.world scope search).length with htotal
  by_cases hdone : min search.maxResults.toNat total ≤ 50 * (n + 1)
  · rw [if_pos hdone, if_pos (by omega)]
    have hhead : (catalog c.world scope search).take
        (50 * n + min (min (search.maxResults.toNat - 50 * n) (min 50 (total - 50 * n))) 50) =
        (catalog c.world scope search).take search.maxResults.toNat :=
      List.take_eq_take_iff.mpr (by omega)
    rw [hhead]
  · have hall : min (search.maxResults.toNat - 50 * n) (min 50 (total - 50 * n)) = 50 := by omega
    have hnext : { atPage c.world scope search n with
        page := (atPage c.world scope search n).page + 1
        remaining := search.maxResults.toNat - 50 * n - 50
        results := ((catalog c.world scope search).take (50 * n + min 50 50)).map c.world.level } =
        atPage c.world scope search (n + 1) := by
      simp only [atPage, Nat.min_self, Nat.mul_add, Nat.mul_one, Nat.sub_sub]
    rw [if_neg hdone, if_neg (by omega), hall, hnext]

/-- **From any of its pages on, a search comes to the head of the catalog.** Behind `n` pages it
takes `k + 1` more. -/
theorem drive_atPage {c : Simulator} (h : c.Rested)
    (hsize : (catalog c.world scope search).length < 2 ^ 32) {n k : Nat}
    (hn : 50 * n < search.maxResults.toNat)
    (hk : max 1 ((min search.maxResults.toNat (catalog c.world scope search).length + 49) / 50) =
      n + (k + 1)) (rounds : Nat) :
    (Query.drive advance (rounds + (k + 1))
        (.await ⟨c.lastId + 2⟩ (atPage c.world scope search n))).run
        (c.opened (atPage c.world scope search n).request) =
      (some (.ok (((catalog c.world scope search).take search.maxResults.toNat).map
        c.world.level)), c.searched (k + 1)) := by
  induction k generalizing n c with
  | zero =>
    rw [run_drive_atPage h hsize hn]
    exact if_pos (by omega)
  | succ k ih =>
    rw [← Nat.add_assoc rounds, run_drive_atPage h hsize hn]
    dsimp only
    rw [if_neg (by omega)]
    have hrest := ih (h.searched 1) hsize (n := n + 1) (by omega) (hk.trans (by omega))
    rw [Simulator.searched_searched, Nat.add_comm 1] at hrest
    exact hrest

/-- How many pages a search asks for. -/
def pages (search : Search) (total : Nat) : Nat :=
  if search.maxResults = 0 then 0 else max 1 ((min search.maxResults.toNat total + 49) / 50)

/-- A search that has the platform to itself, from its start. -/
theorem finds_head {c : Simulator} (h : c.Rested)
    (hsize : (catalog c.world scope search).length < 2 ^ 32) :
    Finds c scope search
      (((catalog c.world scope search).take search.maxResults.toNat).map c.world.level)
      (c.searched (pages search (catalog c.world scope search).length)) := by
  rcases Nat.eq_zero_or_pos search.maxResults.toNat with hnone | hsome
  · have hpages : pages search (catalog c.world scope search).length = 0 :=
      if_pos (UInt32.toNat_inj.mp hnone)
    refine ⟨0, fun rounds _ => ?_⟩
    rw [hpages, hnone]
    have hstart : (start scope search).run c = (.done [], c) := by
      rw [start, if_pos (show (opening scope search).remaining = 0 from hnone)]
      rfl
    rw [drive, Transition.run_bind, hstart]
    exact run_drive_done _ _ _ _
  · obtain ⟨k, hk⟩ : ∃ k, max 1 ((min search.maxResults.toNat
        (catalog c.world scope search).length + 49) / 50) = k + 1 :=
      Nat.exists_eq_add_of_le' (Nat.le_max_left 1 _)
    have hpages : pages search (catalog c.world scope search).length = k + 1 := by
      rw [pages, if_neg fun hzero => (Nat.ne_of_gt hsome) (congrArg UInt32.toNat hzero), hk]
    refine ⟨k + 1, fun rounds hrounds => ?_⟩
    have hstart : (start scope search).run c =
        (⟨.await ⟨c.lastId + 2⟩ (opening scope search), []⟩,
          c.opened (opening scope search).request) := by
      rw [start, if_neg (show (opening scope search).remaining ≠ 0 from Nat.ne_of_gt hsome)]
      exact Simulator.run_requestPage h _ _
    have hdrive := drive_atPage h hsize (n := 0) (k := k) hsome (hk.trans (Nat.zero_add _).symm)
      (rounds - (k + 1))
    rw [Nat.sub_add_cancel hrounds] at hdrive
    rw [drive, Transition.run_bind, hstart, hpages]
    exact hdrive

/-- **A search finds the head of the catalog.** This is as many items as are wanted, or all there
are, and nothing is skipped or repeated where pages meet. The search asks for as many pages as hold
what it finds, but for one at least unless nothing is wanted, and it leaves no page open. Whoever
wants more finds the same items first. -/
theorem search_finds_head_of_catalog (s : Snapshot) (hsize : s.items.length < 2 ^ 32)
    (scope : Scope) (text : Option String) :
    ∃ c items, (Simulator.new s).start = (.ok (), c) ∧ s.IsCatalog scope text items ∧
      (∀ max : UInt32, ∃ c',
        Finds c scope ⟨max, text⟩
          ((items.take max.toNat).map fun r =>
            ⟨r.item, s.personaName r.item.owner, r.previewUrl⟩) c' ∧
        c'.pages = [] ∧ c'.pagesRequested = pages ⟨max, text⟩ items.length) ∧
      ∀ fewer more : UInt32, fewer ≤ more → ∀ levels levels' c₁ c₂,
        Finds c scope ⟨fewer, text⟩ levels c₁ → Finds c scope ⟨more, text⟩ levels' c₂ →
          levels <+: levels' := by
  have hstart : (Simulator.new s).start =
      (.ok (), { Simulator.new s with isStarted := true }) := rfl
  set c : Simulator := { Simulator.new s with isStarted := true }
  have hrested : c.Rested := ⟨rfl, rfl, rfl, rfl, rfl⟩
  have hcatalog := Simulator.isCatalog_catalog s scope ⟨0, text⟩
  set items := Simulator.catalog s (opening scope ⟨0, text⟩).request
  have hlength : items.length < 2 ^ 32 :=
    Nat.lt_of_le_of_lt (hcatalog.perm.length_eq.trans_le (List.length_filter_le _ _)) hsize
  -- The catalog does not depend on how much is wanted.
  have hfinds : ∀ max : UInt32, Finds c scope ⟨max, text⟩ ((items.take max.toNat).map c.world.level)
      (c.searched (pages ⟨max, text⟩ items.length)) :=
    fun _ => finds_head hrested hlength
  refine ⟨c, items, hstart, hcatalog, fun max => ⟨_, hfinds max, rfl, ?_⟩, ?_⟩
  · exact Nat.zero_add _
  · intro fewer more hle levels levels' c₁ c₂ hfewer hmore
    rw [hfewer.unique (hfinds fewer), hmore.unique (hfinds more)]
    exact (List.take_prefix_take_left (UInt32.le_iff_toNat_le.mp hle)).map _

/-- A level of user `7`, created at time `90`. -/
def recordedLevel (number : UInt64) (title tags : String) : RecordedItem :=
  ⟨⟨number, 7, "level", title, "", 90, 90, 1, 0, 0, .zero _ false, tags⟩, "preview"⟩

/-- Three levels, two of them with the same tag. -/
def threeLevels : Snapshot :=
  { Snapshot.empty with
    items := [recordedLevel 1 "Cave" "Hard, Dark", recordedLevel 2 "Lake" "Calm",
      recordedLevel 3 "The old cave" "Hard"] }

theorem catalog_threeLevels :
    Simulator.catalog threeLevels (opening ⟨480, ["Hard"]⟩ ⟨0, some "CAVE"⟩).request =
      [recordedLevel 3 "The old cave" "Hard", recordedLevel 1 "Cave" "Hard, Dark"] := by
  have hcovered : threeLevels.covered ⟨480, ["Hard"]⟩ (some "CAVE") =
      [recordedLevel 1 "Cave" "Hard, Dark", recordedLevel 3 "The old cave" "Hard"] := by
    decide +kernel
  rw [Simulator.catalog, Simulator.filter_isMatch_eq_covered, hcovered]
  simp [List.mergeSort, Simulator.precedes, recordedLevel]

/-- Of levels created at the same time, the one with the larger number is found. -/
theorem search_of_threeLevels : threeLevels.items.length < 2 ^ 32 ∧ ∃ c c',
    (Simulator.new threeLevels).start = (.ok (), c) ∧
      Finds c ⟨480, ["Hard"]⟩ ⟨1, some "CAVE"⟩
        [⟨(recordedLevel 3 "The old cave" "Hard").item, "[unknown]", "preview"⟩] c' ∧
      c'.pages = [] ∧ c'.pagesRequested = 1 := by
  refine ⟨by decide, ?_⟩
  obtain ⟨c, items, hstart, hitems, hfinds, -⟩ :=
    search_finds_head_of_catalog threeLevels (by decide) ⟨480, ["Hard"]⟩ (some "CAVE")
  have hcatalog : items = _ := hitems.unique
    (Simulator.isCatalog_catalog threeLevels ⟨480, ["Hard"]⟩ ⟨0, some "CAVE"⟩)
  rw [catalog_threeLevels] at hcatalog
  subst hcatalog
  obtain ⟨c', hfinds, hpages, hrequested⟩ := hfinds 1
  exact ⟨c, c', hstart, hfinds, hpages, hrequested⟩

end Workshop

end Query

end PlatformProxy
