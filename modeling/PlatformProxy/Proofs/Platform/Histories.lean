import Mathlib.Data.List.DropRight
import PlatformProxy.Proofs.Platform.Calls
import PlatformProxy.Proofs.Platform.Transcript

/-!
# Histories of the simulator

What the simulator answers is told by its history, the calls made so far with their answers. A call
that takes time has a completion, which is known when the call is made, and which the next
collection delivers. A download or a page is computed when it is asked for, and is there to be read
until it is released.

One counter numbers handles of all kinds. What a call makes ready takes its number first, and the
call itself the next one, so a handle is known from the handle of the call that it comes with.

The client has two tables of what is ready, which are kept in the same way. What is said of them
here is said of both at once.

## Main definitions

* `Platform.history` — calls with their answers
* `Platform.Answered.issued?` — the completion of a call
* `Platform.Simulator.Table` — one of the two tables
* `Platform.Simulator.Faithful` — a history in which nothing gets lost, repeated or mixed up

## Main results

* `Platform.Simulator.InUse.turn` — what one call does to a client
* `Platform.Simulator.Kept.history`, `Platform.Simulator.Kept.answer` — a client is told by its
  history
* `Platform.Simulator.histories_are_faithful` — and so are its answers
-/

namespace PlatformProxy

namespace Platform

open Query

/-- Calls with their answers, made one after another. -/
def history {σ : Type} [Client σ] (c : σ) : List Call → List Answered
  | [] => []
  | call :: rest => ⟨call, ((call.make σ).run c).1⟩ :: history ((call.make σ).run c).2 rest

/-! ### What calls come to -/

/-- The numbers of the handles that a completion hands over. -/
def Completion.numbers (x : Completion) : List Nat :=
  (x.download?.map DownloadRef.id).toList ++ (x.page?.map PageRef.id).toList

namespace World

/-- The rows that a call makes ready. -/
def rows? (w : World) : Call → Option (List Entry)
  | .downloadRange board first last => some (w.selected (.range first last) board)
  | .downloadUsers board users => some (w.selected (.users users) board)
  | _ => none

/-- The items that a call makes ready. -/
def items? (w : World) : Call → Option (List RecordedItem)
  | .requestPage request => some (w.page request)
  | _ => none

/-- How a download ends that has its rows under a handle. -/
def downloaded (w : World) (rows : List Entry) (entries : DownloadRef) : Completion :=
  .downloaded (if w.fails .download then .error {} else .ok ⟨entries, Int32.ofNat rows.length⟩)

/-- How a request ends that has its page under a handle. -/
def pageCompleted (w : World) (request : PageRequest) (page : PageRef) : Completion :=
  .pageCompleted (if w.fails .requestPage then .error {} else .ok (w.summary request page))

end World

namespace Answered

/-- The completion of a call, if it has one, with the handle that the call returned. What is ready
then has the handle before that. -/
def issued? (w : World) : Answered → Option (CallRef × Completion)
  | ⟨.findBoard name, call⟩ => some (call, .boardFound (w.foundBoard name))
  | ⟨.downloadRange board first last, call⟩ =>
    some (call, w.downloaded (w.selected (.range first last) board) ⟨call.id - 1⟩)
  | ⟨.downloadUsers board users, call⟩ =>
    some (call, w.downloaded (w.selected (.users users) board) ⟨call.id - 1⟩)
  | ⟨.requestPage request, call⟩ => some (call, w.pageCompleted request ⟨call.id - 1⟩)
  | _ => none

/-- The numbers of the handles that a call has drawn, in order. -/
def numbers (w : World) (r : Answered) : List Nat :=
  match r.issued? w with
  | some (call, x) => x.numbers ++ [call.id]
  | none => []

end Answered

namespace Simulator

/-- One of the tables of a client, in which calls put what is ready to be read. -/
structure Table (ρ α : Type) where
  number : ρ → Nat
  /-- What a completion hands over. -/
  handle? : Completion → Option ρ
  number_mem : ∀ {x d}, handle? x = some d → number d ∈ x.numbers
  /-- What a call makes ready. -/
  content? : World → Call → Option α
  release : ρ → Call
  release_inj : ∀ {d d'}, release d = release d' → d = d'
  find? : Simulator → ρ → Option α

namespace Table

/-- The rows of downloads. -/
def rows : Table DownloadRef (List Entry) where
  number := DownloadRef.id
  handle? := Completion.download?
  number_mem h := by simp [Completion.numbers, h]
  content? := World.rows?
  release := .releaseEntries
  release_inj := Call.releaseEntries.inj
  find? := rowsOf?

/-- The items of pages. -/
def pages : Table PageRef (List RecordedItem) where
  number := PageRef.id
  handle? := Completion.page?
  number_mem h := by simp [Completion.numbers, h]
  content? := World.items?
  release := .releasePage
  release_inj := Call.releasePage.inj
  find? := itemsOf?

end Table

end Simulator

namespace Answered

/-- The handle under which a call has made something ready. -/
def handed? {ρ α : Type} (r : Answered) (T : Simulator.Table ρ α) (w : World) : Option ρ :=
  (r.issued? w).bind fun x => T.handle? x.2

theorem number_mem_of_handed? {ρ α : Type} {r : Answered} {T : Simulator.Table ρ α} {w : World}
    {d : ρ} (h : r.handed? T w = some d) : T.number d ∈ r.numbers w := by
  obtain ⟨⟨call, x⟩, hissued, hhandle⟩ := Option.bind_eq_some_iff.mp h
  rw [numbers, hissued]
  exact List.mem_append_left _ (T.number_mem hhandle)

end Answered

namespace Simulator

variable {ρ α : Type} {w : World} {c c' : Simulator} {t : List Answered} {r : Answered}

/-! ### One call -/

/-- What a call does to a table. -/
structure Table.Turned (T : Table ρ α) (w : World) (c : Simulator) (r : Answered)
    (c' : Simulator) : Prop where
  ready : ∀ d, r.handed? T w = some d → T.find? c' d = T.content? w r.call
  released : ∀ d, r.call = T.release d → T.find? c' d = none
  kept : ∀ d, r.handed? T w ≠ some d → r.call ≠ T.release d → T.find? c' d = T.find? c d

namespace Table.Turned

variable {T : Table ρ α}

theorem same (hnone : r.handed? T w = none) (hrelease : ∀ d, r.call ≠ T.release d)
    (hfind : ∀ d, T.find? c' d = T.find? c d) : T.Turned w c r c' where
  ready _ h := absurd (hnone.symm.trans h) nofun
  released d' h := absurd h (hrelease d')
  kept d _ _ := hfind d

theorem put {d : ρ} (hready : r.handed? T w = some d) (hrelease : ∀ d', r.call ≠ T.release d')
    (hfind : T.find? c' d = T.content? w r.call)
    (hother : ∀ d', d' ≠ d → T.find? c' d' = T.find? c d') : T.Turned w c r c' where
  ready d' h := by
    obtain rfl := Option.some.inj (hready.symm.trans h)
    exact hfind
  released d' h := absurd h (hrelease d')
  kept d' h _ := hother d' fun heq => h (heq ▸ hready)

theorem take {d : ρ} (hnone : r.handed? T w = none) (hcall : r.call = T.release d)
    (hfind : T.find? c' d = none) (hother : ∀ d', d' ≠ d → T.find? c' d' = T.find? c d') :
    T.Turned w c r c' where
  ready d h := absurd (hnone.symm.trans h) nofun
  released d' h := by
    obtain rfl := T.release_inj (hcall.symm.trans h)
    exact hfind
  kept d' _ h := hother d' fun heq => h (heq ▸ hcall)

end Table.Turned

/-- A client that is in use: it has been started, and nothing will fail when it is started again. -/
structure InUse (c : Simulator) : Prop where
  isStarted : c.isStarted = true
  startupFailure : c.startupFailure = none

theorem InUse.same (hc : c.InUse) (hstarted : c'.isStarted = c.isStarted)
    (hfailure : c'.startupFailure = c.startupFailure) : c'.InUse :=
  ⟨hstarted.trans hc.isStarted, hfailure.trans hc.startupFailure⟩

/-- What a call does to a client that is in use. -/
structure Turn (w : World) (c : Simulator) (r : Answered) (c' : Simulator) : Prop where
  inUse : c'.InUse
  world : c'.world = w
  numbers : List.range' 1 c.lastId ++ r.numbers w = List.range' 1 c'.lastId
  completions : c'.completions =
    if r.call = .collect then [] else c.completions ++ (r.issued? w).toList
  rows : Table.rows.Turned w c r c'
  pages : Table.pages.Turned w c r c'

theorem call_of_issued? {issued : CallRef × Completion} (h : r.issued? w = some issued) :
    r.call ≠ .collect ∧ (∀ d, r.call ≠ .releaseEntries d) ∧ ∀ p, r.call ≠ .releasePage p := by
  obtain ⟨call, answer⟩ := r
  refine ⟨?_, fun d => ?_, fun p => ?_⟩ <;> rintro rfl <;> cases h

theorem handed?_of_issued? {T : Table ρ α} {call : CallRef} {x : Completion}
    (h : r.issued? w = some (call, x)) : r.handed? T w = T.handle? x := by
  rw [Answered.handed?, h]
  rfl

theorem handed?_of_issued?_eq_none {T : Table ρ α} (h : r.issued? w = none) :
    r.handed? T w = none := by
  rw [Answered.handed?, h]
  rfl

/-- A call that takes no time draws no handle. -/
theorem turn_of_issued?_eq_none (hissued : r.issued? c.world = none) (hc' : c'.InUse)
    (hworld : c'.world = c.world) (hlast : c'.lastId = c.lastId)
    (hcompletions : c'.completions = if r.call = .collect then [] else c.completions)
    (hrows : Table.rows.Turned c.world c r c') (hpages : Table.pages.Turned c.world c r c') :
    Turn c.world c r c' where
  inUse := hc'
  world := hworld
  numbers := by rw [Answered.numbers, hissued, hlast, List.append_nil]
  completions := by rw [hcompletions, hissued, Option.toList_none, List.append_nil]
  rows := hrows
  pages := hpages

/-- A call that leaves a client as it is. -/
theorem InUse.turn_quiet (hc : c.InUse) (hissued : r.issued? c.world = none)
    (hcollect : r.call ≠ .collect) (hentries : ∀ d, r.call ≠ .releaseEntries d)
    (hpage : ∀ p, r.call ≠ .releasePage p) : Turn c.world c r c :=
  turn_of_issued?_eq_none hissued hc rfl rfl (if_neg hcollect).symm
    (.same (handed?_of_issued?_eq_none hissued) hentries fun _ => rfl)
    (.same (handed?_of_issued?_eq_none hissued) hpage fun _ => rfl)

/-- A call that takes time draws a handle after that of what it makes ready. -/
theorem turn_of_issued? {x : Completion} (hissued : r.issued? c.world = some (⟨c'.lastId⟩, x))
    (hc' : c'.InUse) (hworld : c'.world = c.world)
    (hnumbers : List.range' 1 c.lastId ++ (x.numbers ++ [c'.lastId]) = List.range' 1 c'.lastId)
    (hcompletions : c'.completions = c.completions ++ [(⟨c'.lastId⟩, x)])
    (hrows : Table.rows.Turned c.world c r c') (hpages : Table.pages.Turned c.world c r c') :
    Turn c.world c r c' where
  inUse := hc'
  world := hworld
  numbers := by rw [Answered.numbers, hissued, ← hnumbers]
  completions := by rw [if_neg (call_of_issued? hissued).1, hissued, hcompletions]; rfl
  rows := hrows
  pages := hpages

theorem range'_draw (n : Nat) : List.range' 1 n ++ [n + 1] = List.range' 1 (n + 1) := by
  rw [List.range'_1_concat, Nat.add_comm]

theorem range'_draw_twice (n : Nat) :
    List.range' 1 n ++ [n + 1, n + 2] = List.range' 1 (n + 2) := by
  rw [← range'_draw (n + 1), ← range'_draw n, List.append_assoc]
  rfl

/-- A call that makes nothing ready. -/
theorem InUse.turn_enqueue (hc : c.InUse) {x : Completion} (hdownload : x.download? = none)
    (hpage : x.page? = none) (hissued : r.issued? c.world = some (⟨c.lastId + 1⟩, x)) :
    Turn c.world c r (c.enqueue x).2 := by
  obtain ⟨-, hentries, hpages⟩ := call_of_issued? hissued
  have hnumbers : x.numbers = [] := by rw [Completion.numbers, hdownload, hpage]; rfl
  refine turn_of_issued? hissued (hc.same rfl rfl) rfl ?_ rfl
    (.same ((handed?_of_issued? hissued).trans hdownload) hentries fun _ => rfl)
    (.same ((handed?_of_issued? hissued).trans hpage) hpages fun _ => rfl)
  rw [hnumbers]
  exact range'_draw _

/-- A call that makes rows ready, unless it fails. -/
theorem InUse.turn_download (hc : c.InUse) {rows : List Entry}
    (hcontent : c.world.rows? r.call = some rows)
    (hissued : r.issued? c.world = some ((c.download rows).1,
      c.world.downloaded rows ⟨(c.download rows).1.id - 1⟩)) :
    Turn c.world c r (c.download rows).2 := by
  obtain ⟨-, hentries, hpages⟩ := call_of_issued? hissued
  cases hfails : c.world.fails .download with
  | true =>
    rw [download_of_fails hfails, World.downloaded, if_pos hfails] at hissued
    rw [download_of_fails hfails]
    exact hc.turn_enqueue rfl rfl hissued
  | false =>
    rw [download_of_not_fails hfails, World.downloaded,
      if_neg (ne_true_of_eq_false hfails)] at hissued
    rw [download_of_not_fails hfails]
    refine turn_of_issued? hissued (hc.same rfl rfl) rfl (range'_draw_twice _) rfl
      (.put (handed?_of_issued? hissued) hentries ?_ fun d hne => ?_)
      (.same (handed?_of_issued? hissued) hpages fun _ => rfl)
    · exact (congrArg (Option.map Prod.snd) Keyed.find?_cons_self).trans hcontent.symm
    · exact congrArg (Option.map Prod.snd) (Keyed.find?_cons_of_ne hne)

/-- A call that makes items ready, unless it fails. -/
theorem InUse.turn_requestPage (hc : c.InUse) (request : PageRequest) :
    Turn c.world c ⟨.requestPage request, (c.requestPage request).1⟩
      (c.requestPage request).2 := by
  cases hfails : c.world.fails .requestPage with
  | true =>
    have hissued : Answered.issued? c.world ⟨.requestPage request, ⟨c.lastId + 1⟩⟩ =
        some (⟨c.lastId + 1⟩, .pageCompleted (.error {})) := by
      rw [Answered.issued?, World.pageCompleted, if_pos hfails]
    rw [requestPage_of_fails hfails]
    exact turn_of_issued? hissued (hc.same rfl rfl) rfl (range'_draw _) rfl
      (.same (handed?_of_issued? hissued) nofun fun _ => rfl)
      (.same (handed?_of_issued? hissued) nofun fun _ => rfl)
  | false =>
    have hissued : Answered.issued? c.world ⟨.requestPage request, ⟨c.lastId + 2⟩⟩ =
        some (⟨c.lastId + 2⟩, .pageCompleted (.ok (c.world.summary request ⟨c.lastId + 1⟩))) := by
      rw [Answered.issued?, World.pageCompleted, if_neg (ne_true_of_eq_false hfails)]
      rfl
    rw [requestPage_of_not_fails hfails]
    refine turn_of_issued? hissued (hc.same rfl rfl) rfl (range'_draw_twice _) rfl
      (.same (handed?_of_issued? hissued) nofun fun _ => rfl)
      (.put (handed?_of_issued? hissued) nofun ?_ fun p hne => ?_)
    · exact congrArg (Option.map Prod.snd) Keyed.find?_cons_self
    · exact congrArg (Option.map Prod.snd) (Keyed.find?_cons_of_ne hne)

theorem InUse.start_eq (hc : c.InUse) : c.start = (.ok (), c) := by
  obtain ⟨hstarted, hfailure⟩ := hc
  cases c
  dsimp only at hstarted hfailure
  subst hstarted hfailure
  rfl

/-- **What a call does to a client**, whichever call it is. -/
theorem InUse.turn (hc : c.InUse) {call : Call} (hstop : call ≠ .stop) :
    Turn c.world c ⟨call, ((call.make Simulator).run c).1⟩ ((call.make Simulator).run c).2 := by
  cases call with
  | stop => exact absurd rfl hstop
  | start =>
    have hstart : (Call.start.make Simulator).run c = (.ok (), c) := hc.start_eq
    rw [hstart]
    exact hc.turn_quiet rfl nofun nofun nofun
  | findBoard name => exact hc.turn_enqueue rfl rfl rfl
  | entryCount board => exact hc.turn_quiet rfl nofun nofun nofun
  | downloadRange board first last => exact hc.turn_download rfl rfl
  | downloadUsers board users => exact hc.turn_download rfl rfl
  | entry entries index => exact hc.turn_quiet rfl nofun nofun nofun
  | releaseEntries entries =>
    exact turn_of_issued?_eq_none rfl (hc.same rfl rfl) rfl rfl rfl
      (.take rfl rfl (congrArg (Option.map Prod.snd) Keyed.find?_filter_self)
        fun d hne => congrArg (Option.map Prod.snd) (Keyed.find?_filter_of_ne hne))
      (.same rfl nofun fun _ => rfl)
  | requestPage request => exact hc.turn_requestPage request
  | item page index => exact hc.turn_quiet rfl nofun nofun nofun
  | preview page index => exact hc.turn_quiet rfl nofun nofun nofun
  | releasePage page =>
    exact turn_of_issued?_eq_none rfl (hc.same rfl rfl) rfl rfl rfl (.same rfl nofun fun _ => rfl)
      (.take rfl rfl (congrArg (Option.map Prod.snd) Keyed.find?_filter_self)
        fun p hne => congrArg (Option.map Prod.snd) (Keyed.find?_filter_of_ne hne))
  | personaName user => exact hc.turn_quiet rfl nofun nofun nofun
  | collect =>
    have hcollect : (Call.collect.make Simulator).run c =
        (c.completions, { c with completions := [] }) := run_collect_of_isStarted hc.isStarted
    rw [hcollect]
    exact turn_of_issued?_eq_none rfl (hc.same rfl rfl) rfl rfl rfl (.same rfl nofun fun _ => rfl)
      (.same rfl nofun fun _ => rfl)

/-! ### A whole history -/

/-- The calls made since the last collection. -/
def sinceCollect (t : List Answered) : List Answered := t.rtakeWhile fun r => r.call ≠ .collect

theorem sinceCollect_concat (t : List Answered) (r : Answered) :
    sinceCollect (t ++ [r]) = if r.call = .collect then [] else sinceCollect t ++ [r] := by
  rw [sinceCollect, List.rtakeWhile_concat]
  by_cases h : r.call = .collect
  · rw [if_pos h, if_neg (by simpa using h)]
  · rw [if_neg h, if_pos (by simpa using h)]
    rfl

/-- What a history has left under a handle that one of its calls has handed out: what that call has
made ready, unless it has been released since. -/
def Table.Leaves (T : Table ρ α) (w : World) (t : List Answered) (d : ρ) (content? : Option α) :
    Prop :=
  ∃ made r later, t = made ++ r :: later ∧ r.handed? T w = some d ∧
    content? = if ∃ r' ∈ later, r'.call = T.release d then none else T.content? w r.call

/-- The client after a history. -/
structure Kept (w : World) (c : Simulator) (t : List Answered) : Prop where
  inUse : c.InUse
  world : c.world = w
  numbers : t.flatMap (Answered.numbers w) = List.range' 1 c.lastId
  completions : c.completions = (sinceCollect t).filterMap (Answered.issued? w)
  rows : ∀ d content?, Table.rows.Leaves w t d content? → rowsOf? c d = content?
  items : ∀ p content?, Table.pages.Leaves w t p content? → itemsOf? c p = content?

/-- A handle that is handed out now has not been handed out before. -/
theorem handed?_ne {T : Table ρ α} (h : (t.flatMap (Answered.numbers w) ++ r.numbers w).Nodup)
    {r' : Answered} (hr' : r' ∈ t) {d : ρ} (hd : r'.handed? T w = some d) :
    r.handed? T w ≠ some d := fun hagain =>
  List.disjoint_of_nodup_append h
    (List.mem_flatMap.mpr ⟨r', hr', Answered.number_mem_of_handed? hd⟩)
    (Answered.number_mem_of_handed? hagain)

theorem Table.Turned.leaves {T : Table ρ α} (hturned : T.Turned w c r c')
    (hnodup : (t.flatMap (Answered.numbers w) ++ r.numbers w).Nodup)
    (h : ∀ d content?, T.Leaves w t d content? → T.find? c d = content?) {d : ρ}
    {content? : Option α} (hleaves : T.Leaves w (t ++ [r]) d content?) :
    T.find? c' d = content? := by
  obtain ⟨made, r', later, ht, hd, rfl⟩ := hleaves
  rcases List.eq_nil_or_concat' later with rfl | ⟨later, last, rfl⟩
  · obtain ⟨-, hr⟩ := List.append_inj' ht rfl
    obtain rfl := (List.singleton_inj.mp hr).symm
    rw [if_neg nofun]
    exact hturned.ready d hd
  · rw [← List.cons_append, ← List.append_assoc] at ht
    obtain ⟨rfl, hlast⟩ := List.append_inj' ht rfl
    obtain rfl := (List.singleton_inj.mp hlast).symm
    have hmem : r' ∈ made ++ r' :: later := List.mem_append_right _ List.mem_cons_self
    have hfresh := handed?_ne hnodup hmem hd
    have hbefore := h d _ ⟨made, r', later, rfl, hd, rfl⟩
    by_cases hrelease : last.call = T.release d
    · rw [hturned.released d hrelease,
        if_pos ⟨last, List.mem_append_right _ List.mem_cons_self, hrelease⟩]
    · have hiff : (∃ r ∈ later ++ [last], r.call = T.release d) ↔
          ∃ r ∈ later, r.call = T.release d := by
        simp [or_and_right, exists_or, hrelease]
      rw [hturned.kept d hfresh hrelease, hbefore, if_congr hiff rfl rfl]

theorem Kept.snoc (h : Kept w c t) (hturn : Turn w c r c') : Kept w c' (t ++ [r]) := by
  have hnumbers : (t ++ [r]).flatMap (Answered.numbers w) = List.range' 1 c'.lastId := by
    rw [List.flatMap_append, h.numbers, List.flatMap_singleton, hturn.numbers]
  have hnodup : (t.flatMap (Answered.numbers w) ++ r.numbers w).Nodup := by
    rw [h.numbers, hturn.numbers]
    exact List.nodup_range'
  exact {
    inUse := hturn.inUse
    world := hturn.world
    numbers := hnumbers
    completions := by
      rw [hturn.completions, sinceCollect_concat]
      split
      · rfl
      · rw [List.filterMap_append, h.completions, filterMap_cons_eq, List.filterMap_nil,
          List.append_nil]
    rows := fun _ _ => hturn.rows.leaves hnodup h.rows
    items := fun _ _ => hturn.pages.leaves hnodup h.items }

/-- **A client is told by its history.** -/
theorem Kept.history {calls : List Call} (h : Kept w c t) (hstop : Call.stop ∉ calls) :
    ∃ c', Kept w c' (t ++ history c calls) := by
  induction calls generalizing c t with
  | nil => exact ⟨c, by rwa [Platform.history, List.append_nil]⟩
  | cons call rest ih =>
    have hturn := h.inUse.turn (List.ne_of_not_mem_cons hstop).symm
    rw [h.world] at hturn
    obtain ⟨c', hc'⟩ := ih (h.snoc hturn) (List.not_mem_of_not_mem_cons hstop)
    rw [List.append_assoc] at hc'
    exact ⟨c', hc'⟩

/-- Every call is made on a client that is told by what has come before. -/
theorem Kept.answer {calls : List Call} (h : Kept w c t) (hstop : Call.stop ∉ calls)
    {before after : List Answered} (ht : Platform.history c calls = before ++ r :: after) :
    ∃ c', Kept w c' (t ++ before) ∧ r.answer = ((r.call.make Simulator).run c').1 := by
  induction before generalizing c t calls with
  | nil =>
    cases calls with
    | nil => cases ht
    | cons call rest =>
      obtain ⟨rfl, -⟩ := List.cons.inj ht
      exact ⟨c, by rwa [List.append_nil], rfl⟩
  | cons r₀ before ih =>
    cases calls with
    | nil => cases ht
    | cons call rest =>
      obtain ⟨rfl, hrest⟩ := List.cons.inj ht
      have hturn := h.inUse.turn (List.ne_of_not_mem_cons hstop).symm
      rw [h.world] at hturn
      obtain ⟨c', hc', hanswer⟩ := ih (h.snoc hturn) (List.not_mem_of_not_mem_cons hstop) hrest
      rw [List.append_assoc] at hc'
      exact ⟨c', hc', hanswer⟩

/-- **Nothing gets lost, repeated or mixed up** in a history. -/
structure Faithful (w : World) (t : List Answered) : Prop where
  /-- Handles of all kinds are larger than those drawn before them. -/
  handles : (t.flatMap (Answered.numbers w)).Pairwise (· < ·)
  /-- A collection delivers the completions of the calls made since the last one, in order, each
  under the handle that its call has returned. -/
  collected : ∀ before answer after, t = before ++ ⟨.collect, answer⟩ :: after →
    answer = (sinceCollect before).filterMap (Answered.issued? w)
  /-- Rows are read as they were when they were made ready, until they are released. -/
  rows : ∀ before d index answer after rows?, t = before ++ ⟨.entry d index, answer⟩ :: after →
    Table.rows.Leaves w before d rows? →
    answer = if w.fails .readRow || index < 0 then none
      else rows?.bind fun rows => rows[index.toInt.toNat]?
  /-- And so are items. -/
  items : ∀ before p index answer after items?, t = before ++ ⟨.item p index, answer⟩ :: after →
    Table.pages.Leaves w before p items? →
    answer = if w.fails .readItem then none
      else (items?.bind fun items => items[index.toNat]?).map RecordedItem.item
  /-- Previews can be read even if items cannot. -/
  previews : ∀ before p index answer after items?,
    t = before ++ ⟨.preview p index, answer⟩ :: after → Table.pages.Leaves w before p items? →
    answer = (items?.bind fun items => items[index.toNat]?).map RecordedItem.previewUrl

theorem entry?_eq (c : Simulator) (entries : DownloadRef) (index : Int32) :
    c.entry? entries index = if c.world.fails .readRow || index < 0 then none
      else (c.rowsOf? entries).bind fun rows => rows[index.toInt.toNat]? := by
  unfold entry?
  rw [rowsOf?, Option.bind_map]
  rfl

theorem recorded?_eq (c : Simulator) (page : PageRef) (index : UInt32) :
    c.recorded? page index = (c.itemsOf? page).bind fun items => items[index.toNat]? := by
  rw [recorded?, itemsOf?, Option.bind_map]
  rfl

theorem Kept.faithful {calls : List Call} (h : Kept w c []) (hstop : Call.stop ∉ calls) :
    Faithful w (Platform.history c calls) where
  handles := by
    obtain ⟨c', hc'⟩ := h.history hstop
    rw [List.nil_append] at hc'
    rw [hc'.numbers]
    exact List.pairwise_lt_range'
  collected before answer after ht := by
    obtain ⟨c', hc', hanswer⟩ := h.answer hstop ht
    rw [← List.nil_append before, ← hc'.completions]
    exact hanswer.trans (congrArg Prod.fst (run_collect_of_isStarted hc'.inUse.isStarted))
  rows before d index answer after rows? ht hleaves := by
    obtain ⟨c', hc', hanswer⟩ := h.answer hstop ht
    rw [← hc'.rows d rows? hleaves, ← hc'.world, ← entry?_eq]
    exact hanswer
  items before p index answer after items? ht hleaves := by
    obtain ⟨c', hc', hanswer⟩ := h.answer hstop ht
    rw [← hc'.items p items? hleaves, ← hc'.world, ← recorded?_eq]
    exact hanswer
  previews before p index answer after items? ht hleaves := by
    obtain ⟨c', hc', hanswer⟩ := h.answer hstop ht
    rw [← hc'.items p items? hleaves, ← recorded?_eq]
    exact hanswer

/-- A client on which nothing has been called, that may fail to start once. -/
def prepared (w : World) (startup : Option StartError) : Simulator :=
  { new w.snapshot with failures := w.failures, startupFailure := startup }

/-- **Whatever is called on the simulator from its start on, and whatever fails, its answers are
faithful.** A start that fails leaves a client whose next start does not. -/
theorem histories_are_faithful (w : World) :
    ∃ c, (∀ startup, (prepared w startup).start = match startup with
        | none => (.ok (), c)
        | some e => (.error e, prepared w none)) ∧
      ∀ calls, Call.stop ∉ calls → Faithful w (Platform.history c calls) := by
  refine ⟨{ prepared w none with isStarted := true }, fun startup => ?_, fun calls => ?_⟩
  · cases startup <;> rfl
  · refine Kept.faithful ⟨⟨rfl, rfl⟩, rfl, rfl, rfl, ?_, ?_⟩
    · rintro d content? ⟨made, r, later, ht, -⟩
      cases made <;> cases ht
    · rintro d content? ⟨made, r, later, ht, -⟩
      cases made <;> cases ht

/-- Two downloads are on the way at once, and one of them is released. -/
theorem two_downloads_are_kept_apart :
    let w : World := ⟨Snapshot.empty.addBoard "Sprint" [⟨7, 30⟩, ⟨8, 20⟩], []⟩
    let calls : List Call := [.downloadRange ⟨0⟩ 1 1, .downloadUsers ⟨0⟩ [8], .collect,
      .releaseEntries ⟨1⟩, .entry ⟨1⟩ 0, .entry ⟨3⟩ 0]
    Call.stop ∉ calls ∧ ∃ c, (prepared w none).start = (.ok (), c) ∧
      Faithful w (Platform.history c calls) ∧
      Platform.history c calls = [⟨.downloadRange ⟨0⟩ 1 1, ⟨2⟩⟩, ⟨.downloadUsers ⟨0⟩ [8], ⟨4⟩⟩,
        ⟨.collect, [(⟨2⟩, .downloaded (.ok ⟨⟨1⟩, 1⟩)), (⟨4⟩, .downloaded (.ok ⟨⟨3⟩, 1⟩))]⟩,
        ⟨.releaseEntries ⟨1⟩, ()⟩, ⟨.entry ⟨1⟩ 0, none⟩, ⟨.entry ⟨3⟩ 0, some ⟨8, 2, 20⟩⟩] := by
  intro w calls
  obtain ⟨c, hstart, hfaithful⟩ := histories_are_faithful w
  have hstop : Call.stop ∉ calls := by decide
  refine ⟨hstop, c, hstart none, hfaithful calls hstop, ?_⟩
  obtain rfl := congrArg Prod.snd (hstart none)
  rfl

end Simulator

end Platform

end PlatformProxy
