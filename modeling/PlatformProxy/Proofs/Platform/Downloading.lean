import PlatformProxy.Proofs.Platform.Boards
import PlatformProxy.Proofs.Platform.Calls
import PlatformProxy.Proofs.Query.Driving

/-!
# Leaderboard queries on their own

What a query comes to on the simulator is known from `Leads` and `Answers`, where it shares the
client with others. Here it has the client to itself. Between its steps nothing is on the way but
the completion of its own call, so whoever collects next finds this completion, and the query goes
on. As every step makes a query lighter, it comes to its reply, and it leaves nothing behind.

With that, results are a matter of the rows of a board alone.

## Main definitions

* `Platform.Simulator.Resting` — a client with nothing in progress
* `Platform.Simulator.Carries` — a client with one completion on the way

## Main results

* `Platform.Simulator.Resting.resolves` — a query comes to `World.standings`
* `Query.Leaderboard.range_comes_to_its_ranks`, `Query.Leaderboard.users_come_in_rank_order` — which
  rows are found
* `Query.Leaderboard.rows_of_users_are_counted` — how many rows are found for some users
-/

namespace PlatformProxy

open Platform

namespace Platform

open Query Session

namespace Simulator

/-- The client has been started, and nothing is in progress. -/
structure Resting (c : Simulator) : Prop where
  isStarted : c.isStarted = true
  completions : c.completions = []
  serves : c.Serves []

/-- The client has been started, and one call is in progress. -/
structure Carries (c : Simulator) (call : CallRef) (x : Completion) : Prop where
  isStarted : c.isStarted = true
  completions : c.completions = [(call, x)]
  serves : c.Serves [x]

theorem exists_start (s : Snapshot) (failures : List Outage) :
    ∃ c, ({ Simulator.new s with failures } : Simulator).start = (.ok (), c) ∧ c.Resting ∧
      c.world = ⟨s, failures⟩ := by
  have hnone : Keyed.Holds (α := List Entry) DownloadRef.id 0 [] [] := ⟨.refl _, .nil, nofun⟩
  have hnone' : Keyed.Holds (α := List RecordedItem) PageRef.id 0 [] [] := ⟨.refl _, .nil, nofun⟩
  exact ⟨_, rfl, ⟨rfl, rfl, hnone, hnone'⟩, rfl⟩

theorem Resting.carries {c c' : Simulator} {call : CallRef} {x : Completion} (h : c.Resting)
    (hissues : c.Issues c' call x) : c'.Carries call x where
  isStarted := hissues.isStarted.trans h.isStarted
  completions := by rw [hissues.completions, h.completions, List.nil_append]
  serves := h.serves.of_issues hissues

/-- The completion is collected, and what it hands over is released. -/
theorem Carries.resting {c : Simulator} {call : CallRef} {x : Completion} (h : c.Carries call x) :
    (release { c with completions := [] } x).Resting where
  isStarted := h.isStarted
  completions := rfl
  serves := Serves.release (c := { c with completions := [] }) ⟨h.serves.downloads, h.serves.pages⟩

/-- A step of a leaderboard query that comes to an outcome replies, or makes another call. -/
theorem Answers.leaderboard {c c' : Simulator} {reply : Except Query.Error Standings}
    {step : Leaderboard.Step}
    (h : c.Answers (reply.map .leaderboard) (.ofStep .leaderboard .leaderboard step, c')) :
    (step.next = .done reply ∧ c' = c) ∨
      ∃ call query x, step.next = .await call query ∧ c.Issues c' call x ∧
        c'.Leads (.leaderboard query) x (reply.map .leaderboard) := by
  obtain ⟨next, warnings⟩ := step
  cases next with
  | done found =>
    generalize houtcome : reply.map Reply.leaderboard = outcome at h
    generalize hprogress : Progress.ofStep Task.leaderboard Reply.leaderboard
      ⟨.done found, warnings⟩ = progress at h
    cases h with
    | await => cases hprogress
    | done =>
      have hsame : found.map Reply.leaderboard = reply.map Reply.leaderboard :=
        (Progress.done.inj hprogress).trans houtcome.symm
      refine .inl ⟨?_, rfl⟩
      rcases found with _ | _ <;> rcases reply with _ | _ <;> cases hsame <;> rfl
  | await call query =>
    generalize hprogress : Progress.ofStep Task.leaderboard Reply.leaderboard
      ⟨.await call query, warnings⟩ = progress at h
    cases h with
    | done => cases hprogress
    | await hissues hleads =>
      cases hprogress
      exact .inr ⟨call, query, _, rfl, hissues, hleads⟩

/-- One step of a leaderboard query. -/
theorem Leads.exists_step {c : Simulator} {x : Completion} {query : Leaderboard}
    {reply : Except Query.Error Standings}
    (h : c.Leads (.leaderboard query) x (reply.map .leaderboard)) :
    ∃ step c', (query.advance x).run c = (step, c') ∧
      ((step.next = .done reply ∧ c' = c.release x) ∨
        ∃ call query' x', step.next = .await call query' ∧
          (Task.leaderboard query').weight < (Task.leaderboard query).weight ∧
          (c.release x).Issues c' call x' ∧
          c'.Leads (.leaderboard query') x' (reply.map .leaderboard)) := by
  have hanswers : (c.release x).Answers (reply.map .leaderboard)
    (.ofStep .leaderboard .leaderboard ((query.advance x).run c).1,
      ((query.advance x).run c).2) := h.answers_advance
  have hlighter := follows_advance_leaderboard query x c
  generalize (query.advance x).run c = r at hanswers hlighter
  refine ⟨r.1, r.2, rfl, hanswers.leaderboard.imp_right ?_⟩
  rintro ⟨call, query', x', hnext, hissues, hleads⟩
  rw [Progress.ofStep, hnext] at hlighter
  exact ⟨call, query', x', hnext, hlighter, hissues, hleads⟩

/-- **A query that has the client to itself comes to its reply.** -/
theorem Carries.drive {c : Simulator} {call : CallRef} {x : Completion} {query : Leaderboard}
    {reply : Except Query.Error Standings} (h : c.Carries call x)
    (hleads : c.Leads (.leaderboard query) x (reply.map .leaderboard)) :
    ∃ rounds c', c'.Resting ∧ ∀ n ≥ rounds,
      (Query.drive Leaderboard.advance n (.await call query)).run c = (some reply, c') := by
  induction hweight : (Task.leaderboard query).weight using Nat.strongRecOn
    generalizing c call x query with
  | ind weight ih =>
    have hcollect : Client.collect.run c = ([(call, x)], { c with completions := [] }) := by
      rw [run_collect_of_isStarted h.isStarted, h.completions]
    have hfound : ((Client.collect.run c).1.find? fun y => y.1 = call) = some (call, x) := by
      rw [hcollect]
      simp
    -- Collecting does not change where the query leads.
    have hleads' : Simulator.Leads { c with completions := [] } (.leaderboard query) x
        (reply.map .leaderboard) :=
      hleads.congr rfl (fun _ _ => rfl) fun _ _ => rfl
    obtain ⟨step, c₁, hstep, hnext⟩ := hleads'.exists_step
    have hround : ∀ n, (Query.drive Leaderboard.advance (n + 1) (.await call query)).run c =
        (Query.drive Leaderboard.advance n step.next).run c₁ := by
      intro n
      rw [run_drive_await hfound, hcollect]
      dsimp only
      rw [hstep]
    rcases hnext with ⟨hdone, rfl⟩ | ⟨call', query', x', hawait, hlighter, hissues, hrest⟩
    · refine ⟨1, _, h.resting, fun n hn => ?_⟩
      obtain ⟨n, rfl⟩ := Nat.exists_eq_add_of_le' hn
      rw [hround, hdone, run_drive_done]
    · obtain ⟨rounds, c', hc', hdrive⟩ :=
        ih _ (hweight ▸ hlighter) (h.resting.carries hissues) hrest rfl
      refine ⟨rounds + 1, c', hc', fun n hn => ?_⟩
      obtain ⟨n, rfl⟩ := Nat.exists_eq_add_of_le' (Nat.le_of_add_left_le hn)
      rw [hround, hawait]
      exact hdrive n (Nat.le_of_add_le_add_right hn)

/-- **What a query comes to.** -/
theorem Resting.resolves {c : Simulator} (h : c.Resting) (name : String) (selector : Selector) :
    ∃ c', c'.Resting ∧
      Leaderboard.Resolves c name selector (c.world.standings name selector) c' := by
  have hissues : c.Issues (c.findBoard name).2 (c.findBoard name).1 _ := c.issues_enqueue rfl rfl
  obtain ⟨rounds, c', hc', hdrive⟩ := (h.carries hissues).drive (.finding name selector)
  exact ⟨c', hc', rounds, hdrive⟩

end Simulator

end Platform

namespace Query

namespace Leaderboard

/-! ### Rows by rank -/

/-- **A range comes to the rows of its ranks.** On any board whose ranks fit into 32 bits these are
all rows from the first rank of the range, or from the first of the board, to the last rank of the
range, or to the last of the board. They come in the order of their ranks, each as it is on the
board and with the name of its user, and together with the number of all rows. A board that does not
exist has no rows. No download is left open. -/
theorem range_comes_to_its_ranks (s : Snapshot)
    (hsize : ∀ board ∈ s.boards, board.2.length < 2 ^ 31) (name : String) (first last : Int32) :
    ∃ c c' standings, (Simulator.new s).start = (.ok (), c) ∧
      Resolves c name (.range first last) (.ok standings) c' ∧ c'.downloads = [] ∧
      match s.boards.lookup name with
      | none => standings = .empty
      | some rows =>
        standings.total.toInt = rows.length ∧
        standings.entries =
          s.between rows (max first.toInt 1) (min last.toInt rows.length) ∧
        standings.entries.length = (min last.toInt rows.length + 1 - max first.toInt 1).toNat ∧
        (∀ i (h : i < standings.entries.length),
          standings.entries[i].entry.rank.toInt = max first.toInt 1 + i) ∧
        (∀ e ∈ standings.entries, s.Lists rows e) ∧
        (1 ≤ first.toInt → first ≤ last → last.toInt ≤ rows.length →
          (standings.entries.length : Int) = last.toInt - first.toInt + 1) := by
  obtain ⟨c, hstart, hresting, hworld⟩ := Simulator.exists_start s []
  obtain ⟨c', hc', hresolves⟩ := hresting.resolves name (.range first last)
  rw [hworld] at hresolves
  cases hlookup : s.boards.lookup name with
  | none =>
    rw [World.standings_of_absent hlookup] at hresolves
    exact ⟨c, c', _, hstart, hresolves, hc'.serves.downloads.eq_nil, rfl⟩
  | some rows =>
    obtain ⟨board, hboard, rfl⟩ := Snapshot.exists_mem_of_lookup hlookup
    have hrows := hsize board hboard
    rw [World.standings_range hlookup hrows] at hresolves
    have hlength : (s.between board.2 (max first.toInt 1) (min last.toInt board.2.length)).length =
        (min last.toInt board.2.length + 1 - max first.toInt 1).toNat :=
      s.length_between board.2 (by omega) (by omega)
    refine ⟨c, c', _, hstart, hresolves, hc'.serves.downloads.eq_nil,
      Int32.toInt_ofNat_of_lt hrows, rfl, hlength, fun i h => ?_, fun e he => ?_,
      fun hfirst hle hlast => ?_⟩
    · exact Snapshot.rank_between hrows (by omega) h
    · exact Snapshot.lists_of_mem hrows ((s.between_sublist board.2 _ _).subset he)
    · rw [Int32.le_iff_toInt_le] at hle
      dsimp only
      omega

/-- Three rows, two of them of one user. -/
def threeRows : Snapshot :=
  { Snapshot.empty with
    boards := [("Sprint", [⟨7, 30⟩, ⟨8, 20⟩, ⟨7, 10⟩])]
    personas := [(7, "Seven")] }

/-- A range that begins before the board. -/
theorem range_of_threeRows : (∀ board ∈ threeRows.boards, board.2.length < 2 ^ 31) ∧ ∃ c c',
    (Simulator.new threeRows).start = (.ok (), c) ∧
      Resolves c "Sprint" (.range (-5) 2)
        (.ok ⟨[⟨⟨7, 1, 30⟩, "Seven"⟩, ⟨⟨8, 2, 20⟩, "[unknown]"⟩], 3⟩) c' ∧ c'.downloads = [] := by
  have hsize : ∀ board ∈ threeRows.boards, board.2.length < 2 ^ 31 := by decide
  refine ⟨hsize, ?_⟩
  obtain ⟨c, c', ⟨entries, total⟩, hstart, hresolves, hdownloads, htotal, hentries, -⟩ :=
    range_comes_to_its_ranks threeRows hsize "Sprint" (-5) 2
  have htotal : total = 3 := Int32.toInt_inj.mp htotal
  have hentries : entries = [⟨⟨7, 1, 30⟩, "Seven"⟩, ⟨⟨8, 2, 20⟩, "[unknown]"⟩] :=
    hentries.trans (by decide)
  subst htotal hentries
  exact ⟨c, c', hstart, hresolves, hdownloads⟩

/-! ### Rows by user -/

/-- **Users come in the order of their ranks.** On any board whose ranks fit into 32 bits a list of
users comes to the rows of these users, or to the first hundred of them, each with its rank on the
whole board and the name of its user, and together with the number of all rows. Neither the order of
the list counts nor how often a user is on it. If no user has two rows and no more than a hundred
users are meant, all of them that have a row are found. -/
theorem users_come_in_rank_order (s : Snapshot)
    (hsize : ∀ board ∈ s.boards, board.2.length < 2 ^ 31) {name : String} {rows : List Row}
    (hboard : s.boards.lookup name = some rows) (users : List UserId) :
    ∃ c c' standings, (Simulator.new s).start = (.ok (), c) ∧
      Resolves c name (.users users) (.ok standings) c' ∧ c'.downloads = [] ∧
      standings.total.toInt = rows.length ∧
      standings.entries = ((s.listing rows).filter fun e => e.entry.user ∈ users).take 100 ∧
      (standings.entries.Pairwise fun a b => a.entry.rank < b.entry.rank) ∧
      (∀ e ∈ standings.entries, s.Lists rows e) ∧
      (∀ users', (∀ user, user ∈ users' ↔ user ∈ users) →
        ∃ c'', Resolves c name (.users users') (.ok standings) c'') ∧
      ((rows.map Row.user).Nodup → users.dedup.length ≤ 100 →
        ∀ row ∈ rows, row.user ∈ users → ∃ e ∈ standings.entries, e.entry.user = row.user) := by
  obtain ⟨c, hstart, hresting, hworld⟩ := Simulator.exists_start s []
  have hresolves : ∀ users', ∃ c', c'.Resting ∧ Resolves c name (.users users')
      (.ok ⟨s.ofUsers rows users', Int32.ofNat rows.length⟩) c' := by
    intro users'
    rw [← World.standings_users hboard users', ← hworld]
    exact hresting.resolves name (.users users')
  obtain ⟨c', hc', hfound⟩ := hresolves users
  obtain ⟨board, hmem, rfl⟩ := Snapshot.exists_mem_of_lookup hboard
  have hrows := hsize board hmem
  have hsub := s.ofUsers_sublist board.2 users
  refine ⟨c, c', _, hstart, hfound, hc'.serves.downloads.eq_nil, Int32.toInt_ofNat_of_lt hrows, rfl,
    (Snapshot.pairwise_rank hrows).sublist hsub, fun e he => ?_, fun users' hsame => ?_,
    fun hnodup hmany row hrow huser => ?_⟩
  · exact Snapshot.lists_of_mem hrows (hsub.subset he)
  · obtain ⟨c'', -, hagain⟩ := hresolves users'
    rw [s.ofUsers_congr board.2 hsame] at hagain
    exact ⟨c'', hagain⟩
  · refine s.exists_mem_ofUsers (Nat.le_trans (Snapshot.countP_user_le ?_) hmany) hrow huser
    exact fun user _ => List.nodup_iff_count_le_one.mp hnodup user

/-- Rows of a user keep the ranks of the whole board. -/
theorem users_of_threeRows : (∀ board ∈ threeRows.boards, board.2.length < 2 ^ 31) ∧
    threeRows.boards.lookup "Sprint" = some [⟨7, 30⟩, ⟨8, 20⟩, ⟨7, 10⟩] ∧ ∃ c c',
      (Simulator.new threeRows).start = (.ok (), c) ∧
        Resolves c "Sprint" (.users [9, 7, 7])
          (.ok ⟨[⟨⟨7, 1, 30⟩, "Seven"⟩, ⟨⟨7, 3, 10⟩, "Seven"⟩], 3⟩) c' ∧ c'.downloads = [] := by
  have hsize : ∀ board ∈ threeRows.boards, board.2.length < 2 ^ 31 := by decide
  have hboard : threeRows.boards.lookup "Sprint" = some [⟨7, 30⟩, ⟨8, 20⟩, ⟨7, 10⟩] := by decide
  refine ⟨hsize, hboard, ?_⟩
  obtain ⟨c, c', ⟨entries, total⟩, hstart, hresolves, hdownloads, htotal, hentries, -⟩ :=
    users_come_in_rank_order threeRows hsize hboard [9, 7, 7]
  have htotal : total = 3 := Int32.toInt_inj.mp htotal
  have hentries : entries = [⟨⟨7, 1, 30⟩, "Seven"⟩, ⟨⟨7, 3, 10⟩, "Seven"⟩] :=
    hentries.trans (by decide)
  subst htotal hentries
  exact ⟨c, c', hstart, hresolves, hdownloads⟩

/-! ### How many rows -/

/-- **Rows are counted, not users.** Whatever fails, a result for some users has as many entries as
there are rows of these users, up to a hundred. Where none of them has two rows there are no more
entries than users. -/
theorem rows_of_users_are_counted (s : Snapshot) (failures : List Outage) (name : String)
    (users : List UserId) :
    ∃ c c' reply, ({ Simulator.new s with failures } : Simulator).start = (.ok (), c) ∧
      Resolves c name (.users users) reply c' ∧
      (failures = [] → ∃ standings, reply = .ok standings) ∧
      ∀ standings, reply = .ok standings →
        let rows := (s.boards.lookup name).getD []
        standings.entries.length = min 100 (rows.countP fun row => row.user ∈ users) ∧
        ((∀ user ∈ users, (rows.map Row.user).count user ≤ 1) →
          standings.entries.length ≤ users.length) := by
  obtain ⟨c, hstart, hresting, hworld⟩ := Simulator.exists_start s failures
  obtain ⟨c', -, hresolves⟩ := hresting.resolves name (.users users)
  rw [hworld] at hresolves
  -- What is found where nothing fails.
  have hfound : ∃ standings, World.standings ⟨s, []⟩ name (.users users) = .ok standings ∧
      standings.entries = s.ofUsers ((s.boards.lookup name).getD []) users := by
    cases hlookup : s.boards.lookup name with
    | none => exact ⟨_, World.standings_of_absent hlookup _, rfl⟩
    | some rows => exact ⟨_, World.standings_users hlookup users, rfl⟩
  obtain ⟨found, hok, hentries⟩ := hfound
  refine ⟨c, c', _, hstart, hresolves, fun hnone => ⟨found, by rw [hnone, hok]⟩,
    fun standings h => ?_⟩
  obtain rfl := Except.ok.inj (hok.symm.trans (World.standings_of_ok h))
  have hlength := s.length_ofUsers ((s.boards.lookup name).getD []) users
  rw [← hentries] at hlength
  refine ⟨hlength, fun hone => ?_⟩
  have hdedup := users.dedup_sublist.length_le
  have hcount := Snapshot.countP_user_le hone
  omega

/-- One user with a row and one without. -/
theorem rows_of_two_users :
    (∀ user ∈ ([8, 9] : List UserId),
      (((threeRows.boards.lookup "Sprint").getD []).map Row.user).count user ≤ 1) ∧
    ∃ c c' standings, (Simulator.new threeRows).start = (.ok (), c) ∧
      Resolves c "Sprint" (.users [8, 9]) (.ok standings) c' ∧ standings.entries.length = 1 ∧
        standings.entries.length ≤ [8, 9].length := by
  have hone : ∀ user ∈ ([8, 9] : List UserId),
      (((threeRows.boards.lookup "Sprint").getD []).map Row.user).count user ≤ 1 :=
    List.forall_mem_cons.mpr ⟨by decide, List.forall_mem_singleton.mpr (by decide)⟩
  refine ⟨hone, ?_⟩
  obtain ⟨c, c', reply, hstart, hresolves, hok, hcount⟩ :=
    rows_of_users_are_counted threeRows [] "Sprint" [8, 9]
  obtain ⟨standings, rfl⟩ := hok rfl
  obtain ⟨hlength, hle⟩ := hcount standings rfl
  exact ⟨c, c', standings, hstart, hresolves, hlength.trans (by decide), hle hone⟩

/-- One user with two rows. -/
theorem more_rows_than_users : ∃ c c' standings, (Simulator.new threeRows).start = (.ok (), c) ∧
    Resolves c "Sprint" (.users [7]) (.ok standings) c' ∧
      [7].length < standings.entries.length := by
  obtain ⟨c, hstart, hresting, hworld⟩ := Simulator.exists_start threeRows []
  obtain ⟨c', -, hresolves⟩ := hresting.resolves "Sprint" (.users [7])
  have hboard : threeRows.boards.lookup "Sprint" = some [⟨7, 30⟩, ⟨8, 20⟩, ⟨7, 10⟩] := by decide
  rw [hworld, World.standings_users hboard] at hresolves
  exact ⟨c, c', _, hstart, hresolves, by decide⟩

end Leaderboard

end Query

end PlatformProxy
