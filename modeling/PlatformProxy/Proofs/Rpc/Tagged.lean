import PlatformProxy.Proofs.Platform.Catalog
import PlatformProxy.Proofs.Session.Matching
import PlatformProxy.Proofs.Tags
import PlatformProxy.Rpc.Record

/-!
# Tags of what is found

A search finds items that have a required tag. The platform compares the required tags with what
stands between the commas of an item's tag text, and there an empty piece is a piece. A caller gets
the pieces that are not empty. So a caller sees why a level was found unless the reason is an empty
tag, and an empty tag is one that nobody can carry.

Settings do not keep an empty tag out of a scope. With one, items without any tags are found.

## Main results

* `Platform.World.covers_of_reply` — what a search comes to is covered by its scope
* `Rpc.found_levels_are_tagged` — levels list a required tag, or have an empty one
* `Rpc.untagged_level_is_found` — and may list none then
-/

namespace PlatformProxy

open Query

namespace Platform

namespace World

variable (w : World)

theorem isMatch_of_mem_page {request : PageRequest} {r : RecordedItem} (h : r ∈ w.page request) :
    Simulator.isMatch request w.snapshot.app r.item = true := by
  have hcatalog := List.mem_of_mem_drop (List.mem_of_mem_take h)
  rw [Simulator.catalog, List.mem_mergeSort] at hcatalog
  exact (List.mem_filter.mp hcatalog).2

theorem isMatch_of_mem_results {query : Workshop} (count : Nat)
    (h : ∀ level ∈ query.results,
      Simulator.isMatch query.request w.snapshot.app level.item = true) :
    ∀ level ∈ query.results ++ ((w.page query.request).take count).map w.level,
      Simulator.isMatch query.request w.snapshot.app level.item = true := by
  intro level hlevel
  rcases List.mem_append.mp hlevel with hbefore | hnew
  · exact h level hbefore
  · obtain ⟨r, hr, rfl⟩ := List.mem_map.mp hnew
    exact w.isMatch_of_mem_page (List.mem_of_mem_take hr)

/-- From any page on, a search comes to levels that match its request. -/
theorem isMatch_of_search {query : Workshop} {levels : List Level}
    (h : w.search query = .ok levels)
    (hresults : ∀ level ∈ query.results,
      Simulator.isMatch query.request w.snapshot.app level.item = true) :
    ∀ level ∈ levels, Simulator.isMatch query.request w.snapshot.app level.item = true := by
  fun_induction w.search query with
  | case1 => cases h
  | case2 => cases h
  | case3 =>
    obtain rfl := Except.ok.inj h
    exact w.isMatch_of_mem_results _ hresults
  | case4 query _ wanted _ _ _ _ ih =>
    -- The next request differs in its page only, which no item is compared with.
    exact ih h (w.isMatch_of_mem_results wanted hresults)

/-- **What a search comes to is covered by its scope.** -/
theorem covers_of_reply {scope : Scope} {command : Session.Command} {levels : List Level}
    (h : w.reply scope command = .ok (.workshop levels)) :
    ∃ search, command = .workshop search ∧
      ∀ level ∈ levels, scope.Covers search.searchText w.snapshot.app level.item := by
  cases command with
  | leaderboard name selector =>
    rw [reply] at h
    cases hresult : w.standings name selector <;> rw [hresult] at h <;> cases h
  | personaName user => cases h
  | workshop search =>
    refine ⟨search, rfl, fun level hlevel => (Simulator.isMatch_iff scope search _ _).mp ?_⟩
    rw [reply] at h
    split at h
    · cases h
      cases hlevel
    · cases hresult : w.search (Workshop.opening scope search) with
      | error e =>
        rw [hresult] at h
        cases h
      | ok levels' =>
        rw [hresult] at h
        cases h
        exact w.isMatch_of_search hresult (List.forall_mem_nil _) level hlevel

end World

end Platform

namespace Rpc

open Session Session.Loop Platform

/-- **Found levels are tagged.** Whatever happens to a session, each level in the result of a search
lists one of the required tags, unless one of these is empty and so is a piece of the tag text of
the level. -/
theorem found_levels_are_tagged (snapshot : Snapshot) (failures : List Outage) {scope : Scope}
    (hsome : scope.requiredTags ≠ []) :
    ∃ s : Session Simulator, start { Simulator.new snapshot with failures } scope = .ok s ∧
      ∀ es, ∀ o ∈ ((ofSession s).run es).session.outcomes, ∀ levels, o.2 = .ok (.workshop levels) →
        ∀ level ∈ levels,
          (∃ tag ∈ scope.requiredTags, tag ∈ (LevelRecord.ofEntry level).tags) ∨
            "" ∈ scope.requiredTags ∧ "" ∈ Tags.pieces level.item.tags := by
  obtain ⟨s, hs, hinstep⟩ := exists_start snapshot failures scope
  refine ⟨s, hs, fun es o ho levels hlevels level hlevel => ?_⟩
  have hrun := hinstep.run es
  obtain ⟨command, -, hreply⟩ := hrun.matched.outcomes o ho (by rw [hlevels]; exact nofun)
  rw [hrun.origins.sameScope, hlevels] at hreply
  obtain ⟨search, -, hcovers⟩ := World.covers_of_reply _ hreply.symm
  obtain hnone | ⟨tag, htag, hpiece⟩ := (hcovers level hlevel).tagged
  · exact absurd hnone hsome
  · by_cases hempty : tag = ""
    · subst hempty
      exact .inr ⟨htag, hpiece⟩
    · exact .inl ⟨tag, htag, Tags.mem_split.mpr ⟨hpiece, hempty⟩⟩

/-- A platform with one level. -/
def oneLevel (tags : String) : Snapshot :=
  { Snapshot.empty with
    items := [⟨⟨1, 7, "level", "Cave", "", 90, 90, 1, 0, 0, .zero _ false, tags⟩, "preview"⟩] }

/-- That level as it is found. -/
def foundLevel (tags : String) : Level :=
  ⟨⟨1, 7, "level", "Cave", "", 90, 90, 1, 0, 0, .zero _ false, tags⟩, "[unknown]", "preview"⟩

/-- A search, from its command to its outcome. -/
def searchEvents : List Loop.Event :=
  [.send (.workshop ⟨5, none⟩), .accept, .collect, .dispatch 0, .endRound]

/-- A level with two tags and an empty piece between them. -/
theorem tagged_level_is_found :
    ["Sprint"] ≠ [] ∧ ∃ s : Session Simulator,
      start { Simulator.new (oneLevel "Hard,,Sprint") with failures := [] } ⟨480, ["Sprint"]⟩ =
          .ok s ∧
        ((ofSession s).run searchEvents).session.outcomes =
          [(0, .ok (.workshop [foundLevel "Hard,,Sprint"]))] ∧
        ((∃ tag ∈ ["Sprint"], tag ∈ (LevelRecord.ofEntry (foundLevel "Hard,,Sprint")).tags) ∨
          "" ∈ ["Sprint"] ∧ "" ∈ Tags.pieces "Hard,,Sprint") := by
  have hsome : ["Sprint"] ≠ [] := by decide
  obtain ⟨s, hs, htagged⟩ :=
    @found_levels_are_tagged (oneLevel "Hard,,Sprint") [] ⟨480, ["Sprint"]⟩ hsome
  have houtcomes : ((ofSession s).run searchEvents).session.outcomes =
      [(0, .ok (.workshop [foundLevel "Hard,,Sprint"]))] := by
    obtain ⟨-, rfl⟩ := exists_of_start hs
    decide +kernel
  refine ⟨hsome, s, hs, houtcomes, ?_⟩
  exact htagged searchEvents _ (houtcomes ▸ List.mem_singleton_self _) _ rfl _
    (List.mem_singleton_self _)

/-- A level without tags is found when an empty tag is required, and lists none. -/
theorem untagged_level_is_found :
    ["Sprint", ""] ≠ [] ∧ ∃ s : Session Simulator,
      start { Simulator.new (oneLevel "") with failures := [] } ⟨480, ["Sprint", ""]⟩ = .ok s ∧
        ((ofSession s).run searchEvents).session.outcomes =
          [(0, .ok (.workshop [foundLevel ""]))] ∧
        ¬ ∃ tag ∈ ["Sprint", ""], tag ∈ (LevelRecord.ofEntry (foundLevel "")).tags :=
  ⟨by decide, _, rfl, by decide +kernel, by decide +kernel⟩

end Rpc

end PlatformProxy
