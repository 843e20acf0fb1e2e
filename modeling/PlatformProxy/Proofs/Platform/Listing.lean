import Mathlib.Data.UInt
import PlatformProxy.Proofs.Platform.Requests
import PlatformProxy.Proofs.Platform.World

/-!
# Pages of a request

All requests that differ in their pages only are served from one list, the items that they ask for
with newer ones first. A page is a slice of the list, fifty items long unless the list ends before.
How many items come before a page is limited to 32 bits, which could put a far page where there are
items. It does not, as no list of fewer than `2 ^ 32` items reaches that far.

The order of the list leaves a choice only between items of one time and one number. Where no two
items have the same number there is no choice, so it does not matter in which order the items have
been recorded.

## Main definitions

* `Platform.Snapshot.IsListing` — the items that a request asks for in their order
* `Platform.Simulator.Gives` — what comes of a request on a client

## Main results

* `Platform.Simulator.isListing_catalog` — requests are served from their listing
* `Platform.Simulator.pages_partition_listing` — each item of it is on one page
-/

namespace PlatformProxy

namespace Platform

/-- What the order of items looks at. -/
def RecordedItem.key (r : RecordedItem) : UInt32 × UInt64 := (r.item.created, r.item.publishedFile)

namespace Snapshot

/-- The recorded items that a request asks for. -/
def asked (s : Snapshot) (request : PageRequest) : List RecordedItem :=
  s.items.filter fun r => request.Covers s.app r.item

/-- The items that a request asks for in their order. -/
structure IsListing (s : Snapshot) (request : PageRequest) (items : List RecordedItem) : Prop where
  perm : items.Perm (s.asked request)
  sorted : items.Pairwise fun a b => b.item.created < a.item.created ∨
    a.item.created = b.item.created ∧ b.item.publishedFile ≤ a.item.publishedFile
  /-- What the order leaves open is as it was recorded. -/
  stable : ∀ key, (items.filter fun r => r.key = key) =
    (s.asked request).filter fun r => r.key = key

/-- The same items in another order, for the same application. No two items have one number. -/
structure IsReordered (s s' : Snapshot) : Prop where
  app : s'.app = s.app
  perm : s'.items.Perm s.items
  nodup : (s.items.map fun r => r.item.publishedFile).Nodup

/-! ### The order of items -/

theorem precedes_iff {a b : RecordedItem} :
    Simulator.precedes a b = true ↔ b.item.created < a.item.created ∨
      a.item.created = b.item.created ∧ b.item.publishedFile ≤ a.item.publishedFile := by
  simp [Simulator.precedes]

theorem precedes_trans (a b c : RecordedItem) (hab : Simulator.precedes a b = true)
    (hbc : Simulator.precedes b c = true) : Simulator.precedes a c = true := by
  rw [precedes_iff] at hab hbc ⊢
  rcases hab with hab | ⟨hab, hab'⟩
  · rcases hbc with hbc | ⟨hbc, -⟩
    · exact .inl (UInt32.lt_trans hbc hab)
    · exact .inl (hbc ▸ hab)
  · rcases hbc with hbc | ⟨hbc, hbc'⟩
    · exact .inl (hab ▸ hbc)
    · exact .inr ⟨hab.trans hbc, UInt64.le_trans hbc' hab'⟩

theorem precedes_total (a b : RecordedItem) :
    (Simulator.precedes a b || Simulator.precedes b a) = true := by
  rw [Bool.or_eq_true, precedes_iff, precedes_iff]
  by_cases hsame : a.item.created = b.item.created
  · rcases UInt64.le_total a.item.publishedFile b.item.publishedFile with h | h
    · exact .inr (.inr ⟨hsame.symm, h⟩)
    · exact .inl (.inr ⟨hsame, h⟩)
  · rcases UInt32.lt_or_lt_of_ne hsame with h | h
    · exact .inr (.inl h)
    · exact .inl (.inl h)

/-- Only items with the same key precede each other. -/
theorem key_eq_of_precedes {a b : RecordedItem} (hab : Simulator.precedes a b = true)
    (hba : Simulator.precedes b a = true) : a.key = b.key := by
  rw [precedes_iff] at hab hba
  rcases hab with hab | ⟨hcreated, hab⟩
  · rcases hba with hba | ⟨hba, -⟩
    · exact absurd (UInt32.lt_trans hab hba) (UInt32.lt_irrefl _)
    · exact absurd (hba ▸ hab) (UInt32.lt_irrefl _)
  · rcases hba with hba | ⟨-, hba⟩
    · exact absurd (hcreated ▸ hba) (UInt32.lt_irrefl _)
    · exact Prod.ext hcreated (UInt64.le_antisymm hba hab)

theorem precedes_of_key_eq {a b : RecordedItem} (h : a.key = b.key) :
    Simulator.precedes a b = true := by
  obtain ⟨hcreated, hnumber⟩ := Prod.mk.inj h
  exact precedes_iff.mpr (.inr ⟨hcreated, hnumber ▸ UInt64.le_refl _⟩)

theorem filter_key_cons {r : RecordedItem} {key : UInt32 × UInt64} (h : r.key = key)
    (l : List RecordedItem) :
    ((r :: l).filter fun r => r.key = key) = r :: l.filter fun r => r.key = key :=
  List.filter_cons_of_pos (decide_eq_true h)

/-- Two lists in order that hold the same items of each key, in the same order, are equal. -/
theorem eq_of_precedes {l l' : List RecordedItem}
    (hl : l.Pairwise fun a b => Simulator.precedes a b = true)
    (hl' : l'.Pairwise fun a b => Simulator.precedes a b = true) (hperm : l.Perm l')
    (hsame : ∀ key, (l.filter fun r => r.key = key) = l'.filter fun r => r.key = key) : l = l' := by
  induction l generalizing l' with
  | nil => exact hperm.nil_eq
  | cons a l ih =>
    cases l' with
    | nil => exact absurd hperm.eq_nil (List.cons_ne_nil _ _)
    | cons b l' =>
      obtain ⟨ha, htail⟩ := List.pairwise_cons.mp hl
      obtain ⟨hb, htail'⟩ := List.pairwise_cons.mp hl'
      -- Each head precedes all that is in the other list.
      have hkey : a.key = b.key := by
        rcases List.mem_cons.mp (hperm.mem_iff.mp List.mem_cons_self) with rfl | hab
        · rfl
        · rcases List.mem_cons.mp (hperm.mem_iff.mpr List.mem_cons_self) with rfl | hba
          · rfl
          · exact key_eq_of_precedes (ha b hba) (hb a hab)
      have hfirst := hsame a.key
      rw [filter_key_cons rfl, filter_key_cons hkey.symm] at hfirst
      obtain rfl := (List.cons.inj hfirst).1
      refine congrArg _ (ih htail htail' hperm.cons_inv fun key => ?_)
      have hrest := hsame key
      by_cases hk : a.key = key
      · rw [filter_key_cons hk, filter_key_cons hk] at hrest
        exact (List.cons.inj hrest).2
      · rwa [List.filter_cons_of_neg (by simpa using hk),
          List.filter_cons_of_neg (by simpa using hk)] at hrest

theorem IsListing.precedes {s : Snapshot} {request : PageRequest} {items : List RecordedItem}
    (h : s.IsListing request items) :
    items.Pairwise fun a b => Simulator.precedes a b = true :=
  h.sorted.imp precedes_iff.mpr

/-- **There is one listing.** -/
theorem IsListing.unique {s : Snapshot} {request : PageRequest} {items items' : List RecordedItem}
    (h : s.IsListing request items) (h' : s.IsListing request items') : items = items' :=
  eq_of_precedes h.precedes h'.precedes (h.perm.trans h'.perm.symm)
    fun key => (h.stable key).trans (h'.stable key).symm

end Snapshot

namespace Simulator

/-! ### The list -/

theorem filter_isMatch_eq_asked (s : Snapshot) (request : PageRequest) :
    (s.items.filter fun r => isMatch request s.app r.item) = s.asked request := by
  refine List.filter_congr fun r _ => ?_
  rw [Bool.eq_iff_iff, isMatch_iff_covers, decide_eq_true_eq]

/-- Items of one key stay in their order when they are sorted. -/
theorem filter_key_mergeSort (l : List RecordedItem) (key : UInt32 × UInt64) :
    ((l.mergeSort precedes).filter fun r => r.key = key) = l.filter fun r => r.key = key := by
  have hsame : (l.filter fun r => r.key = key).Pairwise fun a b => precedes a b = true := by
    refine List.pairwise_of_forall_mem_list fun a ha b hb => ?_
    have hkey : a.key = b.key :=
      (of_decide_eq_true (List.mem_filter.mp ha).2).trans
        (of_decide_eq_true (List.mem_filter.mp hb).2).symm
    exact Snapshot.precedes_of_key_eq hkey
  have hsub := List.sublist_mergeSort Snapshot.precedes_trans Snapshot.precedes_total hsame
    List.filter_sublist
  have hfilter := hsub.filter fun r => r.key = key
  simp only [List.filter_filter, Bool.and_self] at hfilter
  exact (hfilter.eq_of_length ((List.mergeSort_perm l precedes).filter _).length_eq.symm).symm

/-- **Requests are served from their listing.** -/
theorem isListing_catalog (s : Snapshot) (request : PageRequest) :
    s.IsListing request (catalog s request) := by
  rw [catalog, filter_isMatch_eq_asked]
  exact {
    perm := List.mergeSort_perm _ _
    sorted := (List.pairwise_mergeSort Snapshot.precedes_trans Snapshot.precedes_total _).imp
      Snapshot.precedes_iff.mp
    stable := filter_key_mergeSort _ }

theorem length_catalog_le (s : Snapshot) (request : PageRequest) :
    (catalog s request).length ≤ s.items.length :=
  (isListing_catalog s request).perm.length_eq.trans_le (List.length_filter_le _ _)

/-- The order in which items have been recorded does not matter if they differ in their numbers. -/
theorem catalog_of_isReordered {s s' : Snapshot} (h : s.IsReordered s') (request : PageRequest) :
    catalog s' request = catalog s request := by
  have hfound : (s'.items.filter fun r => isMatch request s'.app r.item).Perm
      (s.items.filter fun r => isMatch request s.app r.item) := by
    rw [h.app]
    exact h.perm.filter _
  have hsorted : ∀ l : List RecordedItem,
      (l.mergeSort precedes).Pairwise fun a b => precedes a b = true :=
    List.pairwise_mergeSort Snapshot.precedes_trans Snapshot.precedes_total
  refine List.Perm.eq_of_pairwise (fun a b ha hb hab hba => ?_) (hsorted _) (hsorted _)
    ((List.mergeSort_perm _ _).trans (hfound.trans (List.mergeSort_perm _ _).symm))
  have hmem : ∀ {r}, r ∈ catalog s request → r ∈ s.items := fun hr =>
    (List.mem_filter.mp ((List.mergeSort_perm _ _).mem_iff.mp hr)).1
  have hmem' : a ∈ s.items :=
    h.perm.mem_iff.mp (List.mem_filter.mp ((List.mergeSort_perm _ _).mem_iff.mp ha)).1
  exact List.inj_on_of_nodup_map h.nodup hmem' (hmem hb)
    (Prod.mk.inj (Snapshot.key_eq_of_precedes hab hba)).2

/-- **A page is a slice of the list**, however far behind its end. -/
theorem page_eq (w : World) {request : PageRequest}
    (hsize : (catalog w.snapshot request).length < 2 ^ 32) :
    w.page request =
      ((catalog w.snapshot request).drop (50 * (request.page.toNat - 1))).take 50 := by
  rw [World.page, pageSize, pageStart, pageSize, show UInt32.size = 2 ^ 32 from rfl]
  rcases Nat.le_total ((request.page.toNat - 1) * 50) (2 ^ 32 - 1) with hle | hge
  · rw [Nat.min_eq_left hle, Nat.mul_comm]
  · rw [Nat.min_eq_right hge, List.drop_eq_nil_of_le (by omega),
      List.drop_eq_nil_of_le (by omega)]

/-- The slices of a list make up the list. -/
theorem flatMap_slices (items : List RecordedItem) (pages : Nat) :
    ((List.range pages).flatMap fun n => (items.drop (50 * n)).take 50) =
      items.take (50 * pages) := by
  induction pages with
  | zero => rfl
  | succ n ih =>
    rw [List.range_succ, List.flatMap_append, ih, List.flatMap_singleton, Nat.mul_succ,
      List.take_add]

/-! ### Requests on a client -/

/-- What comes of a request on a client. The completion says how many items are asked for in all
and how many its page has, and these can be read. -/
def Gives (c : Simulator) (request : PageRequest) (total : Nat) (items : List RecordedItem) :
    Prop :=
  ∃ summary : PageSummary,
    (c.requestPage request).2.completions =
      c.completions ++ [((c.requestPage request).1, .pageCompleted (.ok summary))] ∧
    summary.total.toNat = total ∧ summary.returned.toNat = items.length ∧
    ∀ index : UInt32,
      (c.requestPage request).2.item? summary.page index =
        (items[index.toNat]?).map RecordedItem.item ∧
      (c.requestPage request).2.preview? summary.page index =
        (items[index.toNat]?).map RecordedItem.previewUrl

variable {c : Simulator} {request : PageRequest}

theorem gives_page (hrequests : c.fails .requestPage = false) (hreads : c.fails .readItem = false)
    (hsize : (catalog c.snapshot request).length < 2 ^ 32) :
    c.Gives request (catalog c.snapshot request).length (c.world.page request) := by
  obtain ⟨c', hcall⟩ : ∃ c' : Simulator, c' = { c with
      lastId := c.lastId + 2
      pagesRequested := c.pagesRequested + 1
      pages := (⟨c.lastId + 1⟩, c.world.page request) :: c.pages
      completions := c.completions ++
        [(⟨c.lastId + 2⟩, .pageCompleted (.ok (c.world.summary request ⟨c.lastId + 1⟩)))] } :=
    ⟨_, rfl⟩
  have hrequest : c.requestPage request = (⟨c.lastId + 2⟩, c') := by
    rw [hcall]
    exact if_neg (ne_true_of_eq_false hrequests)
  have hrecorded : ∀ index, c'.recorded? ⟨c.lastId + 1⟩ index =
      (c.world.page request)[index.toNat]? := by
    intro index
    rw [hcall, recorded?, List.find?_cons_of_pos (by simp)]
    rfl
  have hfails : c'.fails .readItem = false := by
    rw [hcall]
    exact hreads
  refine ⟨c.world.summary request ⟨c.lastId + 1⟩, ?_, UInt32.toNat_ofNat_of_lt' hsize,
    World.returned_toNat _ _ _, fun index => ?_⟩
  · rw [hrequest, hcall]
  · rw [hrequest, item?, hfails, if_neg Bool.false_ne_true, preview?]
    exact ⟨congrArg _ (hrecorded index), congrArg _ (hrecorded index)⟩

/-- What comes of a request is determined. -/
theorem Gives.unique {total total' : Nat} {items items' : List RecordedItem}
    (h : c.Gives request total items) (h' : c.Gives request total' items') : items = items' := by
  obtain ⟨summary, hcompletion, -, hreturned, hread⟩ := h
  obtain ⟨summary', hcompletion', -, hreturned', hread'⟩ := h'
  have hsame := List.append_cancel_left (hcompletion.symm.trans hcompletion')
  simp only [List.cons.injEq, Prod.mk.injEq, true_and, and_true, Completion.pageCompleted.injEq,
    Except.ok.injEq] at hsame
  subst hsame
  have hlength : items.length = items'.length := hreturned.symm.trans hreturned'
  refine List.ext_getElem hlength fun i hi hi' => ?_
  have hindex : (UInt32.ofNat i).toNat = i :=
    UInt32.toNat_ofNat_of_lt' (Nat.lt_trans (hreturned ▸ hi) summary.returned.toNat_lt)
  obtain ⟨hitem, hpreview⟩ := hread (.ofNat i)
  obtain ⟨hitem', hpreview'⟩ := hread' (.ofNat i)
  rw [hitem, hindex, List.getElem?_eq_getElem hi, List.getElem?_eq_getElem hi'] at hitem'
  rw [hpreview, hindex, List.getElem?_eq_getElem hi, List.getElem?_eq_getElem hi'] at hpreview'
  generalize items[i] = r at hitem' hpreview' ⊢
  generalize items'[i] = r' at hitem' hpreview' ⊢
  obtain ⟨item, preview⟩ := r
  obtain ⟨item', preview'⟩ := r'
  cases hitem'
  cases hpreview'
  rfl

/-- **Pages partition the list of what is asked for.** Every client of a snapshot, whatever else it
is busy with, tells the same total with every page. A page has the items that follow those of the
pages before, and none behind the end of the list, so the pages up to the last one make up the list.
All this stays the same if the items of the snapshot are put in another order and no two of them
have one number. -/
theorem pages_partition_listing (s : Snapshot) (hsize : s.items.length < 2 ^ 32)
    (request : PageRequest) :
    ∃ items, s.IsListing request items ∧
      ∀ s', s' = s ∨ s.IsReordered s' → ∀ c : Simulator, c.snapshot = s' →
        c.fails .requestPage = false → c.fails .readItem = false →
        (∀ page : UInt32, 1 ≤ page → c.Gives { request with page } items.length
          ((items.drop (50 * (page.toNat - 1))).take 50)) ∧
        ∀ pages : List (List RecordedItem), pages.length = (items.length + 49) / 50 →
          (∀ n items', pages[n]? = some items' →
            ∃ total, c.Gives { request with page := .ofNat (n + 1) } total items') →
          pages.flatten = items := by
  refine ⟨catalog s request, isListing_catalog s request, ?_⟩
  rintro s' hs c rfl hrequests hreads
  have hcatalog : catalog c.snapshot request = catalog s request := by
    rcases hs with rfl | hs
    · rfl
    · exact catalog_of_isReordered hs request
  have hlength := Nat.lt_of_le_of_lt (length_catalog_le s request) hsize
  have hgives : ∀ page : UInt32, c.Gives { request with page } (catalog s request).length
      (((catalog s request).drop (50 * (page.toNat - 1))).take 50) := by
    intro page
    -- No item is compared with the page of a request.
    have hpage : catalog c.snapshot { request with page } = catalog s request := hcatalog
    have hgives : c.Gives { request with page } (catalog c.snapshot { request with page }).length
        (c.world.page { request with page }) :=
      gives_page hrequests hreads (hpage ▸ hlength)
    rw [page_eq _ (hpage.symm ▸ hlength)] at hgives
    exact hpage ▸ hgives
  refine ⟨fun page _ => hgives page, fun pages hpages hall => ?_⟩
  have hslices : pages = (List.range (((catalog s request).length + 49) / 50)).map fun n =>
      ((catalog s request).drop (50 * n)).take 50 := by
    refine List.ext_getElem (by rw [hpages, List.length_map, List.length_range])
      fun n hn hn' => ?_
    obtain ⟨total, hgiven⟩ := hall n pages[n] (List.getElem?_eq_getElem hn)
    have hnumber : (UInt32.ofNat (n + 1)).toNat = n + 1 :=
      UInt32.toNat_ofNat_of_lt' (show n + 1 < 2 ^ 32 by omega)
    rw [hgiven.unique (hgives _), hnumber, List.getElem_map, List.getElem_range,
      Nat.add_sub_cancel]
  rw [hslices, ← List.flatMap_def, flatMap_slices]
  exact List.take_of_length_le (by omega)

/-- Items that differ in their numbers. -/
def numbered (numbers : List UInt64) : Snapshot :=
  { Snapshot.empty with
    items := numbers.map fun number => ⟨{ titled "Cave" with publishedFile := number }, "preview"⟩ }

/-- One item more than a page has. -/
def fiftyOne : List UInt64 := (List.range 51).map UInt64.ofNat

/-- Two pages, of a client that has the items in the opposite order. -/
theorem two_pages_of_reordered :
    (numbered fiftyOne).items.length < 2 ^ 32 ∧
      (numbered fiftyOne).IsReordered (numbered fiftyOne.reverse) ∧
      (new (numbered fiftyOne.reverse)).fails .requestPage = false ∧
      (new (numbered fiftyOne.reverse)).fails .readItem = false ∧
      ∃ first item, (numbered fiftyOne).IsListing (searching "cave") (first ++ [item]) ∧
        (new (numbered fiftyOne.reverse)).Gives { searching "cave" with page := 1 } 51 first ∧
        (new (numbered fiftyOne.reverse)).Gives { searching "cave" with page := 2 } 51 [item] := by
  have hsize : (numbered fiftyOne).items.length < 2 ^ 32 := by decide
  have hreordered : (numbered fiftyOne).IsReordered (numbered fiftyOne.reverse) :=
    ⟨rfl, List.Perm.map _ (List.reverse_perm fiftyOne), by decide +kernel⟩
  obtain ⟨items, hlisting, hpages⟩ :=
    pages_partition_listing (numbered fiftyOne) hsize (searching "cave")
  obtain ⟨hgives, hall⟩ := hpages _ (.inr hreordered) (new (numbered fiftyOne.reverse)) rfl rfl rfl
  have hlength : items.length = 51 := hlisting.perm.length_eq.trans (by decide +kernel)
  have hfirst := hgives 1 (by decide)
  have hsecond := hgives 2 (by decide)
  obtain ⟨item, hitem⟩ : ∃ item, (items.drop (50 * ((2 : UInt32).toNat - 1))).take 50 = [item] :=
    List.length_eq_one_iff.mp (by simp [hlength])
  rw [hitem, hlength] at hsecond
  rw [hlength] at hfirst
  have hflatten := hall [_, [item]] (by rw [hlength]; rfl) (by
    rintro (_ | _ | n) items' hn
    · obtain rfl := Option.some.inj hn
      exact ⟨51, hfirst⟩
    · obtain rfl := Option.some.inj hn
      exact ⟨51, hsecond⟩
    · exact absurd hn nofun)
  rw [List.flatten_cons, List.flatten_singleton] at hflatten
  exact ⟨hsize, hreordered, rfl, rfl, _, item, hflatten.symm ▸ hlisting, hfirst, hsecond⟩

end Simulator

end Platform

end PlatformProxy
