import Mathlib.Data.List.Basic
import PlatformProxy.Proofs.Platform.Listing
import PlatformProxy.Query.Workshop

/-!
# The catalog of a search

The items of a search and their order depend on the recorded state and on nothing else. The items
are those that a scope covers, newer ones first. Of items created at the same time, those with
larger numbers come first. Nothing keeps a snapshot from having two items of one number, so the
order may still leave a choice, and there the order of the snapshot decides. With that, the catalog
is one list, and not one of several.

## Main definitions

* `Query.Scope.Covers` — the items of a search
* `Platform.Snapshot.IsCatalog` — the items of a search in their order

## Main results

* `Platform.Simulator.isMatch_iff` — a request matches the items of its search
* `Platform.Snapshot.IsCatalog.unique`, `Platform.Simulator.isCatalog_catalog` — there is one
  catalog, and requests are served from it
-/

namespace PlatformProxy

open Platform

namespace Query

/-- The items of a search: those of the application that have one of the required tags, if there
are any, and that contain the text, if there is one, in any letter case. -/
structure Scope.Covers (scope : Scope) (text : Option String) (app : Option AppId) (item : Item) :
    Prop where
  app : ∀ a ∈ app, a = scope.app
  tagged : scope.requiredTags = [] ∨ ∃ tag ∈ scope.requiredTags, tag ∈ Tags.pieces item.tags
  found : ∀ t ∈ text, t ≠ "" →
    Text.lower t.toList <:+: Text.lower item.title.toList ∨
      Text.lower t.toList <:+: Text.lower item.description.toList

end Query

namespace Platform

open Query

namespace Simulator

variable (scope : Scope) (search : Search)

/-- **A request of a search matches the items of the search.** An empty text is no text. -/
theorem isMatch_iff (app : Option AppId) (item : Item) :
    isMatch (Workshop.opening scope search).request app item = true ↔
      scope.Covers search.searchText app item := by
  have htext : ∀ P : String → Prop,
      (∀ t ∈ search.searchText.filter fun text => !text.isEmpty, t ≠ "" → P t) ↔
        ∀ t ∈ search.searchText, t ≠ "" → P t := by
    intro P
    cases search.searchText with
    | none => simp
    | some text => by_cases h : text = "" <;> simp [h]
  rw [isMatch_iff_covers]
  constructor
  · rintro ⟨⟨happ, htags, -⟩, hfound⟩
    exact ⟨happ, htags rfl, (htext _).mp hfound⟩
  · rintro ⟨happ, htags, hfound⟩
    exact ⟨⟨happ, fun _ => htags, nofun⟩, (htext _).mpr hfound⟩

end Simulator

instance (scope : Scope) (text : Option String) (app : Option AppId) (item : Item) :
    Decidable (scope.Covers text app item) :=
  decidable_of_iff _ (Simulator.isMatch_iff scope ⟨0, text⟩ app item)

namespace Snapshot

/-- The recorded items of a search. -/
def covered (s : Snapshot) (scope : Scope) (text : Option String) : List RecordedItem :=
  s.items.filter fun r => scope.Covers text s.app r.item

/-- The items of a search in their order. -/
structure IsCatalog (s : Snapshot) (scope : Scope) (text : Option String)
    (items : List RecordedItem) : Prop where
  perm : items.Perm (s.covered scope text)
  sorted : items.Pairwise fun a b => b.item.created < a.item.created ∨
    a.item.created = b.item.created ∧ b.item.publishedFile ≤ a.item.publishedFile
  /-- What the order leaves open is as it was recorded. -/
  stable : ∀ key, (items.filter fun r => r.key = key) =
    (s.covered scope text).filter fun r => r.key = key

end Snapshot

namespace Simulator

/-! ### One catalog -/

theorem filter_isMatch_eq_covered (s : Snapshot) (scope : Scope) (search : Search) :
    (s.items.filter fun r => isMatch (Workshop.opening scope search).request s.app r.item) =
      s.covered scope search.searchText := by
  refine List.filter_congr fun r _ => ?_
  rw [Bool.eq_iff_iff, isMatch_iff, decide_eq_true_eq]

/-- The catalog of a search is the listing of its requests. -/
theorem isCatalog_iff_isListing {s : Snapshot} {scope : Scope} {search : Search}
    {items : List RecordedItem} :
    s.IsCatalog scope search.searchText items ↔
      s.IsListing (Workshop.opening scope search).request items := by
  have hasked : s.asked (Workshop.opening scope search).request =
      s.covered scope search.searchText := by
    rw [← filter_isMatch_eq_asked, filter_isMatch_eq_covered]
  exact ⟨fun h => ⟨hasked ▸ h.perm, h.sorted, hasked ▸ h.stable⟩,
    fun h => ⟨hasked ▸ h.perm, h.sorted, hasked ▸ h.stable⟩⟩

/-- **The requests of a search are served from its catalog.** -/
theorem isCatalog_catalog (s : Snapshot) (scope : Scope) (search : Search) :
    s.IsCatalog scope search.searchText (catalog s (Workshop.opening scope search).request) :=
  isCatalog_iff_isListing.mpr (isListing_catalog s _)

end Simulator

/-- **There is one catalog.** -/
theorem Snapshot.IsCatalog.unique {s : Snapshot} {scope : Scope} {text : Option String}
    {items items' : List RecordedItem} (h : s.IsCatalog scope text items)
    (h' : s.IsCatalog scope text items') : items = items' := by
  have hlisting : s.IsListing (Workshop.opening scope ⟨0, text⟩).request items :=
    Simulator.isCatalog_iff_isListing.mp h
  exact hlisting.unique (Simulator.isCatalog_iff_isListing.mp h')

end Platform

end PlatformProxy
