import PlatformProxy.Proofs.Query.Course
import PlatformProxy.Proofs.Query.Rows

/-!
# All the rows that were asked for, or none

A leaderboard query trusts the client with nothing. The client may report any number of rows for a
download, negative ones included, may fail to give any of them, and may complete a call with what
belongs to another. Still the query makes its calls in one order, reads no more rows than a range
of ranks has and no row behind one that is missing, releases what it has read once and does not
touch it again, and replies with all of the rows or with an error.

How many rows a range has is computed by the query in 32 bits, with differences that are limited at
both ends. `Selector.asked` computes it in the integers. The two agree because a count of rows is
itself within 32 bits.

## Main definitions

* `Query.Selector.asked` — how many rows of a download are asked for
* `Query.Leaderboard.course` — a leaderboard query from its start
* `Query.Leaderboard.Unfolds`, `Query.Leaderboard.Downloads` — what a query does with the
  completions it gets, until it knows its board and from then on

## Main results

* `Query.Selector.wanted_eq_toNat_asked` — limits do not matter
* `Query.Leaderboard.all_rows_or_none` — what a query does with any client
-/

namespace PlatformProxy

namespace Query

open Platform
open Program (Performs)

namespace Selector

/-- How many rows are asked for of a download that has `count` of them. -/
def asked (selector : Selector) (count : Int32) : Int :=
  match selector with
  | range first last => min count.toInt (max 0 (last.toInt - first.toInt + 1))
  | users _ => max 0 count.toInt

/-- **Limits do not matter.** A range too wide for 32 bits is as good as one that just fits. -/
theorem wanted_eq_toNat_asked (selector : Selector) (count : Int32) :
    selector.wanted count = (selector.asked count).toNat := by
  have hcount := count.toInt_lt
  cases selector with
  | range first last =>
    have hmin : Int32.minValue.toInt = -2147483648 := rfl
    have hmax : Int32.maxValue.toInt = 2147483647 := rfl
    simp only [wanted, asked, saturate, hmin, hmax]
    omega
  | users ids =>
    simp only [wanted, asked]
    omega

/-- The call for the wanted rows of a board. -/
def download (selector : Selector) (board : BoardRef) (call : CallRef) : Answered :=
  match selector with
  | range first last => ⟨.downloadRange board first last, call⟩
  | users ids => ⟨.downloadUsers board ids, call⟩

end Selector

namespace Leaderboard

variable {σ : Type} [Client σ]

/-- A leaderboard query from its start, with some deliveries. -/
def course (name : String) (selector : Selector) (c : σ) (ds : List (Delivery σ)) :
    Course Leaderboard Standings :=
  .run (fun _ _ => start name selector) (fun query x _ _ => query.advance x) c ds

/-- What a query does that knows its board and waits for the rows, given some completions: the
calls of its steps, and where it stands then. -/
inductive Downloads (name : String) (selector : Selector) (total : Int32) (call : CallRef) :
    List Completion → List (List Answered) → Next Leaderboard Standings → Prop
  | waiting : Downloads name selector total call [] []
    (.await call ⟨name, selector, .downloading total⟩)
  | failed (e : CallFailed) (rest : List Completion) :
    Downloads name selector total call (.downloaded (.error e) :: rest) [[]]
      (.done (.error .callFailed))
  | misdirected {x : Completion} (hkind : x.kind ≠ .downloaded) (rest : List Completion) :
    Downloads name selector total call (x :: rest) [[]]
      (.done (.error (.wrongCompletion CompletionKind.downloaded.name x.kind.name)))
  /-- All rows have been read. -/
  | complete {d : Download} {rows : List NamedEntry}
    (hrows : rows.length = (selector.asked d.count).toNat) (rest : List Completion) :
    Downloads name selector total call (.downloaded (.ok d) :: rest)
      [reading (rowCalls d.entries) rows 0 ++ [⟨.releaseEntries d.entries, ()⟩]]
      (.done (.ok ⟨rows, total⟩))
  /-- The row behind some rows cannot be read. -/
  | cut {d : Download} {rows : List NamedEntry}
    (hrows : rows.length < (selector.asked d.count).toNat) (rest : List Completion) :
    Downloads name selector total call (.downloaded (.ok d) :: rest)
      [reading (rowCalls d.entries) rows 0 ++
        [noRow d.entries rows.length, ⟨.releaseEntries d.entries, ()⟩]]
      (.done (.error (.unreadable ("Error retrieving leaderboard entry " ++ toString rows.length ++
        " of '" ++ name ++ "'"))))

/-- What a query does that looks for its board, given some completions. -/
inductive Unfolds (name : String) (selector : Selector) (find : CallRef) :
    List Completion → List (List Answered) → Next Leaderboard Standings → Prop
  | waiting : Unfolds name selector find [] [] (.await find ⟨name, selector, .finding⟩)
  | failed (e : CallFailed) (rest : List Completion) :
    Unfolds name selector find (.boardFound (.error e) :: rest) [[]] (.done (.error .callFailed))
  | misdirected {x : Completion} (hkind : x.kind ≠ .boardFound) (rest : List Completion) :
    Unfolds name selector find (x :: rest) [[]]
      (.done (.error (.wrongCompletion CompletionKind.boardFound.name x.kind.name)))
  | absent (rest : List Completion) :
    Unfolds name selector find (.boardFound (.ok none) :: rest) [[]] (.done (.ok .empty))
  /-- The board is asked for its size and for the wanted rows. -/
  | found (board : BoardRef) (total : Int32) (call : CallRef) {rest : List Completion}
    {steps : List (List Answered)} {next : Next Leaderboard Standings}
    (hrest : Downloads name selector total call rest steps next) :
    Unfolds name selector find (.boardFound (.ok (some board)) :: rest)
      ([⟨.entryCount board, total⟩, selector.download board call] :: steps) next

/-! ### The steps -/

theorem performs_start (name : String) (selector : Selector) (c : σ) :
    ∃ call step c', Performs (fun _ _ => start name selector) c [⟨.findBoard name, call⟩] step c' ∧
      step.next = .await call ⟨name, selector, .finding⟩ := by
  obtain ⟨call, c', hfind⟩ := Performs.make (.findBoard name) c
  exact ⟨call, _, c', hfind.bind (.pure _ c'), rfl⟩

theorem performs_download (query : Leaderboard) (board : BoardRef) (c : σ) :
    ∃ total call c', Performs (fun _ _ => query.download board) c
      [⟨.entryCount board, total⟩, query.selector.download board call]
      (.await call { query with stage := .downloading total }) c' := by
  obtain ⟨name, selector, stage⟩ := query
  obtain ⟨total, c₁, hcount⟩ := Performs.make (.entryCount board) c
  cases selector with
  | range first last =>
    obtain ⟨call, c₂, hdownload⟩ := Performs.make (.downloadRange board first last) c₁
    refine ⟨total, call, c₂, hcount.bind ?_⟩
    exact hdownload.bind (.pure _ c₂)
  | users ids =>
    obtain ⟨call, c₂, hdownload⟩ := Performs.make (.downloadUsers board ids) c₁
    refine ⟨total, call, c₂, hcount.bind ?_⟩
    exact hdownload.bind (.pure _ c₂)

theorem reverse_foldl_cons (rows : List NamedEntry) :
    (rows.foldl (fun acc row => row :: acc) []).reverse = rows := by
  rw [List.foldl_flip_cons_eq_append, List.append_nil, List.reverse_reverse, List.map_id']

/-- **A download is read and released.** -/
theorem performs_read (query : Leaderboard) (total : Int32) (call : CallRef) (d : Download)
    (c : σ) :
    ∃ calls step c', Performs (fun _ _ => query.read total d) c calls step c' ∧ ∀ rest,
      Downloads query.name query.selector total call (.downloaded (.ok d) :: rest) [calls]
        step.next := by
  obtain ⟨rows, c₁, ⟨hlength, hread⟩ | ⟨hlength, hread⟩⟩ :=
    (readsRows d.entries).performs (query.selector.wanted d.count) 0 [] c
  all_goals
    rw [Selector.wanted_eq_toNat_asked] at hlength
    obtain ⟨⟨⟩, c₂, hrelease⟩ := Performs.make (.releaseEntries d.entries) c₁
  · refine ⟨_ ++ ([_] ++ []), _, c₂, hread.bind (hrelease.bind (.pure _ c₂)), fun rest => ?_⟩
    rw [reverse_foldl_cons]
    exact .complete hlength rest
  · refine ⟨_ ++ ([_] ++ []), _, c₂, hread.bind (hrelease.bind (.pure _ c₂)), fun rest => ?_⟩
    rw [Nat.zero_add, List.append_assoc]
    exact .cut hlength rest

/-- Whatever completion the query gets for its rows, it replies. -/
theorem downloads (name : String) (selector : Selector) (total : Int32) (call : CallRef)
    (x : Completion) (c : σ) :
    ∃ calls step c', Performs (fun _ _ => advance ⟨name, selector, .downloading total⟩ x) c
      calls step c' ∧ ∀ rest, Downloads name selector total call (x :: rest) [calls] step.next := by
  rcases x with found | (e | d) | page
  · exact ⟨_, _, c, .pure _ c, .misdirected nofun⟩
  · exact ⟨_, _, c, .pure _ c, .failed e⟩
  · exact performs_read ⟨name, selector, .downloading total⟩ total call d c
  · exact ⟨_, _, c, .pure _ c, .misdirected nofun⟩

theorem Downloads.exists_reply {name : String} {selector : Selector} {total : Int32}
    {call : CallRef} {x : Completion} {rest : List Completion} {steps : List (List Answered)}
    {next : Next Leaderboard Standings}
    (h : Downloads name selector total call (x :: rest) steps next) :
    ∃ reply, next = .done reply := by
  cases h <;> exact ⟨_, rfl⟩

/-- Whatever completion the query gets for its board, it replies or asks for the rows. -/
theorem unfolds (name : String) (selector : Selector) (find : CallRef) (x : Completion) (c : σ) :
    ∃ calls step c', Performs (fun _ _ => advance ⟨name, selector, .finding⟩ x) c
      calls step c' ∧
      ((∃ reply, step.next = .done reply ∧
          ∀ rest, Unfolds name selector find (x :: rest) [calls] (.done reply)) ∨
        ∃ board total call, x = .boardFound (.ok (some board)) ∧
          calls = [⟨.entryCount board, total⟩, selector.download board call] ∧
          step.next = .await call ⟨name, selector, .downloading total⟩) := by
  rcases x with (e | _ | board) | download | page
  · exact ⟨_, _, c, .pure _ c, .inl ⟨_, rfl, .failed e⟩⟩
  · exact ⟨_, _, c, .pure _ c, .inl ⟨_, rfl, .absent⟩⟩
  · obtain ⟨total, call, c', hperforms⟩ := performs_download ⟨name, selector, .finding⟩ board c
    exact ⟨_, _, c', hperforms, .inr ⟨board, total, call, rfl, rfl, rfl⟩⟩
  · exact ⟨_, _, c, .pure _ c, .inl ⟨_, rfl, .misdirected nofun⟩⟩
  · exact ⟨_, _, c, .pure _ c, .inl ⟨_, rfl, .misdirected nofun⟩⟩

/-! ### The whole course -/

/-- **All the rows that were asked for, or none.** With any client, and whatever completions it is
given, a query looks for its board once. For a board that it finds it takes down the size and asks
for the rows of its selector, with one call each. Of a download that is ready it reads as many rows
as are asked for, in order and each followed by the name of its user, or up to the first that is
missing. Then it releases the download, and makes no more calls. It replies with all of the rows and
the size that it took down, or else with an error, which names the row that is missing and the
board, or the completion that it did not expect, or tells of a call that failed. -/
theorem all_rows_or_none (name : String) (selector : Selector) (c : σ) (ds : List (Delivery σ)) :
    ∃ find steps,
      (course name selector c ds).steps = [⟨.findBoard name, find⟩] :: steps ∧
      Unfolds name selector find (ds.map Delivery.completion) steps
        (course name selector c ds).next := by
  obtain ⟨find, step, c', hstart, hnext⟩ := performs_start name selector c
  have hbegin : course name selector c [] =
      ⟨[[⟨.findBoard name, find⟩]], .await find ⟨name, selector, .finding⟩⟩ := by
    rw [← hnext]
    exact Course.begin_eq hstart
  rcases ds with _ | ⟨d, ds⟩
  · rw [hbegin]
    exact ⟨find, [], rfl, .waiting⟩
  obtain ⟨calls, step, c₁, hstep, hfound⟩ := unfolds name selector find d.completion d.client
  have hfirst : course name selector c [d] = ⟨[[⟨.findBoard name, find⟩], calls], step.next⟩ :=
    Course.run_concat_of_await hbegin hstep
  obtain ⟨reply, hreply, hunfolds⟩ | ⟨board, total, call, hx, rfl, hawait⟩ := hfound
  · have hall : course name selector c (d :: ds) = course name selector c [d] :=
      Course.run_append_of_done (congrArg Course.next hfirst |>.trans hreply) ds
    rw [hall, hfirst, hreply]
    exact ⟨find, [calls], rfl, hunfolds _⟩
  rw [hawait] at hfirst
  rcases ds with _ | ⟨d', ds⟩
  · rw [hfirst, List.map_cons, hx]
    exact ⟨find, _, rfl, .found board total call .waiting⟩
  obtain ⟨calls', step', c₂, hstep', hdownloads⟩ :=
    downloads name selector total call d'.completion d'.client
  have hsecond : course name selector c [d, d'] =
      ⟨[[⟨.findBoard name, find⟩],
        [⟨.entryCount board, total⟩, selector.download board call], calls'], step'.next⟩ :=
    Course.run_concat_of_await hfirst hstep'
  obtain ⟨reply, hreply⟩ := (hdownloads []).exists_reply
  have hall : course name selector c (d :: d' :: ds) = course name selector c [d, d'] :=
    Course.run_append_of_done (congrArg Course.next hsecond |>.trans hreply) ds
  rw [hall, hsecond, List.map_cons, hx]
  exact ⟨find, _, rfl, .found board total call (hdownloads _)⟩

end Leaderboard

end Query

end PlatformProxy
