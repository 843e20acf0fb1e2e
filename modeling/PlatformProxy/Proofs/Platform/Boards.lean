import Mathlib.Data.List.Dedup
import Mathlib.Data.List.Perm.Subperm
import PlatformProxy.Proofs.Platform.World
import PlatformProxy.Proofs.Query.Standings

/-!
# The rows of a board

A board is stored as rows in the order of their ranks, and has no ranks of its own. They are counted
from one when the board is read, before any rows are chosen. What is chosen by rank is therefore a
part of the board that hangs together, and what is chosen by user keeps the ranks of the whole
board.

Ranks are compared in 32 bits, and the number of rows that are read is limited by the width of the
range, which is computed in 32 bits as well. On a board whose ranks fit, neither of them shows.
Nothing keeps a board from having several rows of one user, and no limit is set to the number of
rows by the number of users. So there may be more rows than users.

## Main definitions

* `Platform.Snapshot.listing` — all rows of a board, with their ranks and the names of their users
* `Platform.Snapshot.between`, `Platform.Snapshot.ofUsers` — those of some ranks, and of some users
* `Platform.Snapshot.Lists` — an entry is what the board has at its rank

## Main results

* `Platform.World.standings_range`, `Platform.World.standings_users` — what a leaderboard query
  comes to where nothing fails
* `Platform.World.standings_of_ok` — a result is not different because something fails
* `Platform.Snapshot.length_ofUsers`, `Platform.Snapshot.countP_user_le` — how many rows some users
  have
-/

namespace PlatformProxy

namespace Platform

open Query

namespace Snapshot

/-! ### Boards by name -/

/-- The position of a name leads to what is stored under the name. -/
theorem findIdx?_lookup (name : String) (boards : List (String × List Row)) :
    match boards.lookup name with
    | none => (boards.findIdx? fun b => b.1 = name) = none
    | some rows => ∃ i, (boards.findIdx? fun b => b.1 = name) = some i ∧
        (boards[i]?).map Prod.snd = some rows := by
  induction boards with
  | nil => rfl
  | cons board boards ih =>
    obtain ⟨key, rows⟩ := board
    rw [List.findIdx?_cons]
    by_cases hname : name = key
    · subst hname
      simp
    · have hkey : ¬ key = name := fun h => hname h.symm
      have hlookup : List.lookup name ((key, rows) :: boards) = boards.lookup name := by
        rw [List.lookup_cons, beq_false_of_ne hname]
      rw [hlookup]
      simp only [hkey, decide_false, Bool.false_eq_true, if_false]
      cases hrest : boards.lookup name with
      | none =>
        rw [hrest] at ih
        simpa using ih
      | some found =>
        rw [hrest] at ih
        obtain ⟨i, hi, hrows⟩ := ih
        exact ⟨i + 1, by rw [hi]; rfl, hrows⟩

theorem findBoard?_of_absent {s : Snapshot} {name : String} (h : s.boards.lookup name = none) :
    s.findBoard? name = none := by
  have hfind := findIdx?_lookup name s.boards
  rw [h] at hfind
  rw [findBoard?, hfind, Option.map_none]

theorem exists_findBoard? {s : Snapshot} {name : String} {rows : List Row}
    (h : s.boards.lookup name = some rows) :
    ∃ board, s.findBoard? name = some board ∧ s.rows? board = some rows := by
  have hfind := findIdx?_lookup name s.boards
  rw [h] at hfind
  obtain ⟨i, hi, hrows⟩ := hfind
  exact ⟨⟨i⟩, by rw [findBoard?, hi, Option.map_some], hrows⟩

theorem exists_mem_of_lookup {s : Snapshot} {name : String} {rows : List Row}
    (h : s.boards.lookup name = some rows) : ∃ board ∈ s.boards, board.2 = rows := by
  obtain ⟨_, _, hrows⟩ := exists_findBoard? h
  obtain ⟨board, hboard, rfl⟩ := Option.map_eq_some_iff.mp hrows
  exact ⟨board, List.mem_of_getElem? hboard, rfl⟩

/-! ### Rows with ranks -/

variable (s : Snapshot) (rows : List Row)

/-- All rows of a board, with their ranks and the names of their users. -/
def listing : List NamedEntry :=
  rows.mapIdx fun i row => ⟨⟨row.user, Int32.ofNat (i + 1), row.score⟩, s.personaName row.user⟩

/-- The rows of a board from one rank to another, both included. -/
def between (low high : Int) : List NamedEntry :=
  ((s.listing rows).take high.toNat).drop (low - 1).toNat

/-- The rows of some users, as many as one download may have. -/
def ofUsers (users : List UserId) : List NamedEntry :=
  ((s.listing rows).filter fun e => e.entry.user ∈ users).take usersPerDownload

/-- The board has the entry at the rank of the entry, and it shows the name of its user. -/
def Lists (e : NamedEntry) : Prop :=
  rows[(e.entry.rank.toInt - 1).toNat]? = some ⟨e.entry.user, e.entry.score⟩ ∧
    e.playerName = s.personaName e.entry.user

theorem length_listing : (s.listing rows).length = rows.length := List.length_mapIdx

theorem length_between {low high : Int} (hlow : 1 ≤ low) (hhigh : high ≤ rows.length) :
    (s.between rows low high).length = (high + 1 - low).toNat := by
  rw [between, List.length_drop, List.length_take, length_listing]
  omega

section Ranks

variable {s rows} (hsize : rows.length < 2 ^ 31)

include hsize

theorem rank_listing {i : Nat} (h : i < (s.listing rows).length) :
    (s.listing rows)[i].entry.rank.toInt = i + 1 := by
  rw [length_listing] at h
  simp only [listing, List.getElem_mapIdx]
  rw [Int32.toInt_ofNat_of_lt (by omega)]
  rfl

theorem lists_of_mem {e : NamedEntry} (h : e ∈ s.listing rows) : s.Lists rows e := by
  obtain ⟨i, hi, rfl⟩ := List.getElem_of_mem h
  have hrow : i < rows.length := by rwa [length_listing] at hi
  rw [Lists, rank_listing hsize hi, Int.add_sub_cancel, Int.toNat_natCast,
    List.getElem?_eq_getElem hrow]
  simp [listing]

theorem pairwise_rank : (s.listing rows).Pairwise fun a b => a.entry.rank < b.entry.rank := by
  rw [List.pairwise_iff_getElem]
  intro i j hi hj hij
  rw [Int32.lt_iff_toInt_lt, rank_listing hsize hi, rank_listing hsize hj]
  omega

/-- The ranks go up by one. -/
theorem rank_between {low high : Int} (hlow : 1 ≤ low) {i : Nat}
    (h : i < (s.between rows low high).length) :
    (s.between rows low high)[i].entry.rank.toInt = low + i := by
  simp only [between, List.getElem_drop, List.getElem_take]
  rw [rank_listing hsize]
  omega

end Ranks

theorem between_sublist (low high : Int) : (s.between rows low high).Sublist (s.listing rows) :=
  (List.drop_sublist _ _).trans (List.take_sublist _ _)

theorem ofUsers_sublist (users : List UserId) :
    (s.ofUsers rows users).Sublist (s.listing rows) :=
  (List.take_sublist _ _).trans List.filter_sublist

/-! ### Rows of users -/

/-- Which users are meant is all that counts. -/
theorem ofUsers_congr {users users' : List UserId} (h : ∀ user, user ∈ users' ↔ user ∈ users) :
    s.ofUsers rows users' = s.ofUsers rows users := by
  simp only [ofUsers, h]

theorem length_filter_listing (users : List UserId) :
    ((s.listing rows).filter fun e => e.entry.user ∈ users).length =
      rows.countP fun row => row.user ∈ users := by
  have husers : (s.listing rows).map (fun e => e.entry.user) = rows.map Row.user := by
    refine List.ext_getElem (by simp [listing]) fun i _ _ => ?_
    simp [listing]
  have hcount := congrArg (List.countP fun user => decide (user ∈ users)) husers
  rw [List.countP_map, List.countP_map] at hcount
  rw [← List.countP_eq_length_filter]
  exact hcount

theorem length_ofUsers (users : List UserId) :
    (s.ofUsers rows users).length =
      min usersPerDownload (rows.countP fun row => row.user ∈ users) := by
  rw [ofUsers, List.length_take, length_filter_listing]

variable {rows} {users : List UserId}

/-- Users with a row each do not have more rows than there are users. -/
theorem countP_user_le (h : ∀ user ∈ users, (rows.map Row.user).count user ≤ 1) :
    (rows.countP fun row => row.user ∈ users) ≤ users.dedup.length := by
  have hnodup : ((rows.map Row.user).filter fun user => user ∈ users).Nodup := by
    rw [List.nodup_iff_count_le_one]
    intro user
    by_cases huser : user ∈ users
    · rw [List.count_filter (by simpa using huser)]
      exact h user huser
    · have hnone : user ∉ (rows.map Row.user).filter fun user => user ∈ users :=
        fun hmem => huser (by simpa using (List.mem_filter.mp hmem).2)
      rw [List.count_eq_zero_of_not_mem hnone]
      exact Nat.zero_le 1
  have hsub : ((rows.map Row.user).filter fun user => user ∈ users) ⊆ users.dedup := by
    intro user hmem
    exact List.mem_dedup.mpr (by simpa using (List.mem_filter.mp hmem).2)
  have hle := (hnodup.subperm hsub).length_le
  rw [← List.countP_eq_length_filter, List.countP_map] at hle
  exact hle

/-- A user with a row has it in the result, unless the result is cut off. -/
theorem exists_mem_ofUsers (h : (rows.countP fun row => row.user ∈ users) ≤ usersPerDownload)
    {row : Row} (hrow : row ∈ rows) (huser : row.user ∈ users) :
    ∃ e ∈ s.ofUsers rows users, e.entry.user = row.user := by
  rw [← s.length_filter_listing] at h
  obtain ⟨i, hi, rfl⟩ := List.getElem_of_mem hrow
  have hlist : i < (s.listing rows).length := by rwa [length_listing]
  refine ⟨(s.listing rows)[i], ?_, by simp [listing]⟩
  rw [ofUsers, List.take_of_length_le h]
  exact List.mem_filter.mpr ⟨List.getElem_mem hlist, by simpa [listing] using huser⟩

end Snapshot

namespace Simulator

/-- **Rows chosen by rank hang together.** -/
theorem filter_ranked {rank : Nat} {rows : List Row} (hsize : rank + rows.length ≤ 2 ^ 31)
    (first last : Int32) :
    (ranked rank rows).filter (fun e => first ≤ e.rank && e.rank ≤ last) =
      ((ranked rank rows).take (last.toInt + 1 - rank).toNat).drop (first.toInt - rank).toNat := by
  induction rows generalizing rank with
  | nil => simp [ranked]
  | cons row rows ih =>
    rw [List.length_cons] at hsize
    have hrest := @ih (rank + 1) (by omega)
    have hrank : (Int32.ofNat rank).toInt = rank := Int32.toInt_ofNat_of_lt (by omega)
    rw [ranked, List.filter_cons, hrest]
    simp only [Int32.le_iff_toInt_le, hrank, Bool.and_eq_true, decide_eq_true_eq]
    by_cases hlast : (rank : Int) ≤ last.toInt
    · have htake : (last.toInt + 1 - rank).toNat =
          (last.toInt + 1 - (rank + 1 : Nat)).toNat + 1 := by omega
      rw [htake, List.take_succ_cons]
      by_cases hfirst : first.toInt ≤ rank
      · have hdrop : (first.toInt - rank).toNat = 0 := by omega
        have hdrop' : (first.toInt - (rank + 1 : Nat)).toNat = 0 := by omega
        rw [if_pos ⟨hfirst, hlast⟩, hdrop, hdrop', List.drop_zero, List.drop_zero]
      · have hdrop : (first.toInt - rank).toNat = (first.toInt - (rank + 1 : Nat)).toNat + 1 := by
          omega
        rw [if_neg fun h => hfirst h.1, hdrop, List.drop_succ_cons]
    · have htake : (last.toInt + 1 - rank).toNat = 0 := by omega
      have htake' : (last.toInt + 1 - (rank + 1 : Nat)).toNat = 0 := by omega
      rw [if_neg fun h => hlast h.2, htake, htake', List.take_zero, List.take_zero,
        List.drop_nil, List.drop_nil]

end Simulator

namespace World

/-! ### Chosen rows -/

section Chosen

variable (w : World)

theorem map_named_ranked (rank : Nat) (rows : List Row) :
    (Simulator.ranked rank rows).map w.named =
      rows.mapIdx fun i row => w.named ⟨row.user, Int32.ofNat (rank + i), row.score⟩ := by
  induction rows generalizing rank with
  | nil => rfl
  | cons row rows ih =>
    rw [Simulator.ranked, List.map_cons, ih, List.mapIdx_cons]
    simp only [Nat.add_zero, Nat.add_assoc, Nat.add_comm 1]

theorem map_named_ranked_one (rows : List Row) :
    (Simulator.ranked 1 rows).map w.named = w.snapshot.listing rows := by
  rw [map_named_ranked, Snapshot.listing]
  simp only [named, Nat.add_comm 1]

variable {w} {board : BoardRef} {rows : List Row} (h : w.snapshot.rows? board = some rows)

include h

theorem entries_of_rows : w.entries board = Simulator.ranked 1 rows := by
  rw [entries, h, Option.getD_some]

theorem named_selected_range (hsize : rows.length < 2 ^ 31) (first last : Int32) :
    (w.selected (.range first last) board).map w.named =
      w.snapshot.between rows (max first.toInt 1) (min last.toInt rows.length) := by
  have hslice := @Simulator.filter_ranked 1 rows (by omega) first last
  have hdrop : (first.toInt - (1 : Nat)).toNat = (max first.toInt 1 - 1).toNat := by omega
  rw [selected, entries_of_rows h, hslice, List.map_drop, List.map_take, w.map_named_ranked_one,
    Snapshot.between, hdrop]
  refine congrArg (List.drop _) (List.take_eq_take_iff.mpr ?_)
  rw [w.snapshot.length_listing]
  omega

theorem named_selected_users (users : List UserId) :
    (w.selected (.users users) board).map w.named = w.snapshot.ofUsers rows users := by
  rw [selected, entries_of_rows h, List.map_take, Snapshot.ofUsers, ← w.map_named_ranked_one,
    List.filter_map]
  refine congrArg (fun l => (l.map w.named).take usersPerDownload) (List.filter_congr fun e _ => ?_)
  rw [Bool.eq_iff_iff, List.contains_iff_mem]
  exact decide_eq_true_iff.symm

end Chosen

/-! ### Where nothing fails -/

section NothingFails

variable {s : Snapshot} {name : String} {rows : List Row}

theorem fails_nil (s : Snapshot) (point : Outage) : World.fails ⟨s, []⟩ point = false := rfl

theorem standings_of_absent (h : s.boards.lookup name = none) (selector : Selector) :
    World.standings ⟨s, []⟩ name selector = .ok .empty := by
  simp only [standings, foundBoard, fails_nil, Bool.false_eq_true, if_false,
    Snapshot.findBoard?_of_absent h]

/-- All chosen rows are read. -/
theorem standings_of_rows {board : BoardRef} (hrows : s.rows? board = some rows)
    (hfound : s.findBoard? name = some board) {selector : Selector}
    (hall : (World.selected ⟨s, []⟩ selector board).length ≤
      selector.wanted (Int32.ofNat (World.selected ⟨s, []⟩ selector board).length)) :
    World.standings ⟨s, []⟩ name selector =
      .ok ⟨(World.selected ⟨s, []⟩ selector board).map (World.named ⟨s, []⟩),
        Int32.ofNat rows.length⟩ := by
  simp only [standings, foundBoard, standingsOf, readRows, entryCount, fails_nil, Bool.false_and,
    Bool.false_eq_true, if_false, hfound, hrows, Option.getD_some, List.take_of_length_le hall]

variable (h : s.boards.lookup name = some rows)

include h

/-- **A range of ranks comes to the rows of these ranks.** The width of the range is no further
limit. -/
theorem standings_range (hsize : rows.length < 2 ^ 31) (first last : Int32) :
    World.standings ⟨s, []⟩ name (.range first last) =
      .ok ⟨s.between rows (max first.toInt 1) (min last.toInt rows.length),
        Int32.ofNat rows.length⟩ := by
  obtain ⟨board, hfound, hrows⟩ := Snapshot.exists_findBoard? h
  have hselected := named_selected_range (w := ⟨s, []⟩) hrows hsize first last
  rw [standings_of_rows hrows hfound, hselected]
  have hlength := congrArg List.length hselected
  rw [List.length_map, Snapshot.length_between _ _ (by omega) (by omega)] at hlength
  rw [hlength, Selector.wanted_eq_toNat_asked, Selector.asked, Int32.toInt_ofNat_of_lt (by omega)]
  omega

/-- **A list of users comes to the rows of these users.** -/
theorem standings_users (users : List UserId) :
    World.standings ⟨s, []⟩ name (.users users) =
      .ok ⟨s.ofUsers rows users, Int32.ofNat rows.length⟩ := by
  obtain ⟨board, hfound, hrows⟩ := Snapshot.exists_findBoard? h
  rw [standings_of_rows hrows hfound, named_selected_users (w := ⟨s, []⟩) hrows]
  have hlength : (World.selected ⟨s, []⟩ (.users users) board).length ≤ usersPerDownload :=
    List.length_take_le _ _
  rw [usersPerDownload] at hlength
  rw [Selector.wanted_eq_toNat_asked, Selector.asked, Int32.toInt_ofNat_of_lt (by omega)]
  omega

end NothingFails

/-- A result is what the query comes to where nothing fails, in spite of what fails. -/
theorem standings_of_ok {w : World} {name : String} {selector : Selector} {standings : Standings}
    (h : w.standings name selector = .ok standings) :
    World.standings ⟨w.snapshot, []⟩ name selector = .ok standings := by
  have hfind : w.fails .findBoard = false := by
    refine Bool.eq_false_iff.mpr fun hfails => ?_
    simp [World.standings, foundBoard, hfails] at h
  simp only [World.standings, foundBoard, hfind, fails_nil, Bool.false_eq_true, if_false] at h ⊢
  split <;> rename_i hboard <;> rw [hboard] at h
  · exact h
  · exact h
  · simp only [standingsOf, readRows, fails_nil, Bool.false_and, Bool.false_eq_true, if_false]
      at h ⊢
    split at h
    · cases h
    · split at h
      · cases h
      · exact h

end World

end Platform

end PlatformProxy
