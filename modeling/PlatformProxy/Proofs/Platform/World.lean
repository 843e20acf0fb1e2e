import Mathlib.Algebra.GroupWithZero.Nat
import Mathlib.Data.List.Basic
import PlatformProxy.Platform.Simulator
import PlatformProxy.Proofs.Keyed
import PlatformProxy.Proofs.Transition
import PlatformProxy.Session

/-!
# Answers without a client

What a query comes to on the simulator depends on the recorded state and on the failures prepared
for it, and on nothing else: not on handles, and not on what else is in progress. The answers are
given here as functions of these two, with no client in sight.

## Main definitions

* `Platform.World` — a recorded state and prepared failures
* `Platform.World.reply` — the outcome of a command
* `Platform.Simulator.rowsOf?`, `Platform.Simulator.itemsOf?` — what can be read through a handle

## Main results

* `Platform.Simulator.run_readEntries`, `Platform.Simulator.run_readItems` — what reading gives

## Implementation notes

The platform counts rows in 32 bits. A board with more rows than that is served with a count that
has wrapped around, which never promises rows that are not there.
-/

namespace PlatformProxy

namespace Platform

open Query

/-- A recorded state of the platform and the failures prepared for it. -/
structure World where
  snapshot : Snapshot
  failures : List Outage

namespace World

variable (w : World)

def fails (point : Outage) : Bool := w.failures.contains point

/-! ### Leaderboards -/

def foundBoard (name : String) : Except CallFailed (Option BoardRef) :=
  if w.fails .findBoard then .error {} else .ok (w.snapshot.findBoard? name)

/-- All rows of a board with their ranks. -/
def entries (board : BoardRef) : List Entry :=
  Simulator.ranked 1 ((w.snapshot.rows? board).getD [])

def entryCount (board : BoardRef) : Int32 :=
  Int32.ofNat ((w.snapshot.rows? board).getD []).length

/-- The rows that a download makes ready. -/
def selected (selector : Selector) (board : BoardRef) : List Entry :=
  match selector with
  | .range first last => (w.entries board).filter fun e => first ≤ e.rank && e.rank ≤ last
  | .users users => ((w.entries board).filter fun e => users.contains e.user).take usersPerDownload

def named (e : Entry) : NamedEntry := ⟨e, w.snapshot.personaName e.user⟩

/-- What reading downloaded rows comes to. -/
def readRows (name : String) (selector : Selector) (total : Int32) (rows : List Entry) :
    Except Error Standings :=
  let wanted := selector.wanted (Int32.ofNat rows.length)
  if w.fails .readRow && 0 < wanted then .error (Leaderboard.unreadable name 0)
  else .ok ⟨(rows.take wanted).map w.named, total⟩

/-- What a leaderboard query comes to once its board has been found. -/
def standingsOf (name : String) (selector : Selector) (board : BoardRef) :
    Except Error Standings :=
  if w.fails .download then .error .callFailed
  else w.readRows name selector (w.entryCount board) (w.selected selector board)

/-- What a leaderboard query comes to. -/
def standings (name : String) (selector : Selector) : Except Error Standings :=
  match w.foundBoard name with
  | .error _ => .error .callFailed
  | .ok none => .ok .empty
  | .ok (some board) => w.standingsOf name selector board

/-! ### Workshop items -/

def level (r : RecordedItem) : Level :=
  ⟨r.item, w.snapshot.personaName r.item.owner, r.previewUrl⟩

/-- The items of a page. -/
def page (request : PageRequest) : List RecordedItem :=
  ((Simulator.catalog w.snapshot request).drop (Simulator.pageStart request.page)).take
    Simulator.pageSize

theorem length_page_le (request : PageRequest) : (w.page request).length ≤ 50 :=
  List.length_take_le _ _

/-- How many items match, as far as 32 bits can tell. -/
def total (request : PageRequest) : UInt32 :=
  UInt32.ofNat (Simulator.catalog w.snapshot request).length

/-- What is said about a page. -/
def summary (request : PageRequest) (page : PageRef) : PageSummary :=
  ⟨page, UInt32.ofNat (w.page request).length, w.total request⟩

theorem returned_toNat (request : PageRequest) (page : PageRef) :
    (w.summary request page).returned.toNat = (w.page request).length :=
  UInt32.toNat_ofNat_of_lt' (Nat.lt_of_le_of_lt (w.length_page_le request) (by decide))

/-- What a search comes to that stands at some page. -/
def search (query : Workshop) : Except Error (List Level) :=
  let items := w.page query.request
  let wanted := min query.remaining items.length
  let results := query.results ++ (items.take wanted).map w.level
  if w.fails .requestPage then .error .callFailed
  else if w.fails .readItem && 0 < wanted then .error (Workshop.unreadable query.page 0)
  else if (w.total query.request).toNat ≤ results.length ∨ query.remaining - wanted = 0 ∨
      items.length = 0 then .ok results
  else search { query with page := query.page + 1, remaining := query.remaining - wanted, results }
termination_by query.remaining
decreasing_by
  rename_i hmore
  rw [not_or, not_or] at hmore
  change query.remaining - wanted < query.remaining
  omega

/-! ### Commands -/

/-- The outcome of a command. -/
def reply (scope : Scope) : Session.Command → Session.Outcome
  | .leaderboard name selector => (w.standings name selector).map .leaderboard
  | .workshop search =>
    let query := Workshop.opening scope search
    (if query.remaining = 0 then .ok [] else w.search query).map .workshop
  | .personaName user => .ok (.personaName (w.snapshot.personaName user))

/-- No query on the simulator gets a completion that it does not wait for. -/
theorem search_ne_wrongCompletion (query : Workshop) (expected actual : String) :
    w.search query ≠ .error (.wrongCompletion expected actual) := by
  fun_induction w.search query with
  | case1 => simp
  | case2 => simp [Workshop.unreadable]
  | case3 => simp
  | case4 _ _ _ _ _ _ _ ih => exact ih

theorem readRows_ne_wrongCompletion (name : String) (selector : Selector) (total : Int32)
    (rows : List Entry) (expected actual : String) :
    w.readRows name selector total rows ≠ .error (.wrongCompletion expected actual) := by
  rw [readRows]
  split <;> simp [Leaderboard.unreadable]

theorem standings_ne_wrongCompletion (name : String) (selector : Selector)
    (expected actual : String) :
    w.standings name selector ≠ .error (.wrongCompletion expected actual) := by
  rw [standings]
  split
  · simp
  · simp
  · rw [standingsOf]
    split
    · simp
    · exact w.readRows_ne_wrongCompletion _ _ _ _ _ _

theorem reply_ne_wrongCompletion (scope : Scope) (command : Session.Command)
    (expected actual : String) :
    w.reply scope command ≠ .error (.wrongCompletion expected actual) := by
  have hmap : ∀ {R : Type} {result : Except Error R} {f : R → Session.Reply},
      result ≠ .error (.wrongCompletion expected actual) →
      result.map f ≠ .error (.wrongCompletion expected actual) := by
    intro R result f h
    cases result with
    | error e => exact fun he => h (congrArg Except.error (Except.error.inj he))
    | ok r => simp [Except.map]
  cases command with
  | leaderboard name selector => exact hmap (w.standings_ne_wrongCompletion _ _ _ _)
  | personaName user => simp [reply]
  | workshop search =>
    refine hmap ?_
    split
    · simp
    · exact w.search_ne_wrongCompletion _ _ _

end World

theorem toInt_ofNat_le (n : Nat) : (Int32.ofNat n).toInt ≤ n := by
  rw [Int32.toInt_ofNat', Int.bmod_def, show Int32.size = 4294967296 from rfl]
  split <;> omega

/-- A count of rows never promises more rows than there are. -/
theorem wanted_le (selector : Selector) (n : Nat) :
    selector.wanted (Int32.ofNat n) ≤ n ∧ selector.wanted (Int32.ofNat n) ≤ 2 ^ 31 := by
  have hle := toInt_ofNat_le n
  have hlt := (Int32.ofNat n).toInt_lt
  cases selector <;> simp only [Selector.wanted] <;> omega

namespace Simulator

/-- What a client sees of the platform. -/
def world (c : Simulator) : World := ⟨c.snapshot, c.failures⟩

/-- The rows that can be read through a handle. -/
def rowsOf? (c : Simulator) (entries : DownloadRef) : Option (List Entry) :=
  (c.downloads.find? fun d => d.1 = entries).map Prod.snd

/-- The items that can be read through a handle. -/
def itemsOf? (c : Simulator) (page : PageRef) : Option (List RecordedItem) :=
  (c.pages.find? fun p => p.1 = page).map Prod.snd

/-! ### Reading -/

theorem entry_of_rowsOf {c : Simulator} {entries : DownloadRef} {rows : List Entry}
    (h : c.rowsOf? entries = some rows) (hreads : c.world.fails .readRow = false) {index : Nat}
    (hindex : index < 2 ^ 31) : c.entry? entries (Int32.ofNat index) = rows[index]? := by
  obtain ⟨d, hd, rfl⟩ := Option.map_eq_some_iff.mp h
  have htoInt : (Int32.ofNat index).toInt = index := Int32.toInt_ofNat_of_lt hindex
  have hpos : ¬ Int32.ofNat index < 0 := by
    rw [Int32.lt_iff_toInt_lt, htoInt]
    exact Int.not_lt.mpr (Int.natCast_nonneg index)
  have hfails : c.fails .readRow = false := hreads
  unfold entry?
  rw [hfails, hd, htoInt]
  simp [hpos]

theorem entry_of_fails {c : Simulator} (hreads : c.world.fails .readRow = true)
    (entries : DownloadRef) (index : Int32) : c.entry? entries index = none := by
  have hfails : c.fails .readRow = true := hreads
  unfold entry?
  rw [hfails]
  rfl

theorem run_readEntries_succ (c : Simulator) (entries : DownloadRef) (count index : Nat)
    (acc : List NamedEntry) :
    (Leaderboard.readEntries entries (count + 1) index acc).run c =
      match c.entry? entries (Int32.ofNat index) with
      | none => (.error index, c)
      | some e =>
        (Leaderboard.readEntries entries count (index + 1) (c.world.named e :: acc)).run c := by
  rw [Leaderboard.readEntries, Transition.run_bind]
  change StateT.run (match c.entry? entries (Int32.ofNat index) with
    | none => _
    | some e => _) c = _
  cases c.entry? entries (Int32.ofNat index) <;> rfl

/-- Reading rows leaves the client as it is. -/
theorem run_readEntries {c : Simulator} {entries : DownloadRef} {rows : List Entry}
    (h : c.rowsOf? entries = some rows) (count index : Nat) (acc : List NamedEntry)
    (hrows : index + count ≤ rows.length) (hbound : index + count ≤ 2 ^ 31) :
    (Leaderboard.readEntries entries count index acc).run c =
      (if c.world.fails .readRow && 0 < count then .error index
        else .ok (acc.reverse ++ ((rows.drop index).take count).map c.world.named), c) := by
  induction count generalizing index acc with
  | zero =>
    rw [Leaderboard.readEntries, Transition.run_pure]
    simp
  | succ count ih =>
    rw [run_readEntries_succ]
    cases hreads : c.world.fails .readRow with
    | true =>
      rw [entry_of_fails hreads]
      simp
    | false =>
      rw [entry_of_rowsOf h hreads (show index < 2 ^ 31 by omega),
        List.getElem?_eq_getElem (show index < rows.length by omega)]
      dsimp only
      rw [ih (index + 1) _ (by omega) (by omega), hreads,
        List.drop_eq_getElem_cons (show index < rows.length by omega)]
      simp only [Bool.false_and, Bool.false_eq_true, if_false, List.take_succ_cons, List.map_cons,
        List.reverse_cons, List.append_assoc, List.cons_append, List.nil_append]

theorem recorded?_of_itemsOf? {c : Simulator} {page : PageRef} {items : List RecordedItem}
    (h : c.itemsOf? page = some items) {index : Nat} (hindex : index < 2 ^ 32) :
    c.recorded? page (UInt32.ofNat index) = items[index]? := by
  obtain ⟨p, hp, rfl⟩ := Option.map_eq_some_iff.mp h
  have htoNat : (UInt32.ofNat index).toNat = index := UInt32.toNat_ofNat_of_lt' hindex
  rw [recorded?, hp, htoNat]
  rfl

theorem run_readItems_succ (c : Simulator) (page : PageRef) (count index : Nat)
    (acc : Workshop.Gathered) :
    (Workshop.readItems page (count + 1) index acc).run c =
      match c.item? page (UInt32.ofNat index) with
      | none => ((some index, acc), c)
      | some item =>
        let preview := c.preview? page (UInt32.ofNat index)
        (Workshop.readItems page count (index + 1)
          ⟨⟨item, c.snapshot.personaName item.owner, preview.getD ""⟩ :: acc.entries,
            match preview with
            | some _ => acc.warnings
            | none => .noPreview item.publishedFile :: acc.warnings⟩).run c := by
  rw [Workshop.readItems, Transition.run_bind]
  change StateT.run (match c.item? page (UInt32.ofNat index) with
    | none => _
    | some item => _) c = _
  cases c.item? page (UInt32.ofNat index) <;> rfl

/-- Reading items leaves the client as it is. Each of them has a preview. -/
theorem run_readItems {c : Simulator} {page : PageRef} {items : List RecordedItem}
    (h : c.itemsOf? page = some items) (count index : Nat) (acc : Workshop.Gathered)
    (hitems : index + count ≤ items.length) (hbound : index + count ≤ 2 ^ 32) :
    (Workshop.readItems page count index acc).run c =
      (if c.world.fails .readItem && 0 < count then (some index, acc)
        else (none, ⟨(((items.drop index).take count).map c.world.level).reverse ++ acc.entries,
          acc.warnings⟩), c) := by
  induction count generalizing index acc with
  | zero =>
    rw [Workshop.readItems, Transition.run_pure]
    simp
  | succ count ih =>
    rw [run_readItems_succ]
    have hrecorded := recorded?_of_itemsOf? h (show index < 2 ^ 32 by omega)
    rw [List.getElem?_eq_getElem (show index < items.length by omega)] at hrecorded
    cases hreads : c.world.fails .readItem with
    | true =>
      have hfails : c.fails .readItem = true := hreads
      rw [item?, hfails]
      simp
    | false =>
      have hfails : c.fails .readItem = false := hreads
      have hitem : c.item? page (UInt32.ofNat index) = some items[index].item := by
        rw [item?, hfails, hrecorded]
        rfl
      have hpreview : c.preview? page (UInt32.ofNat index) = some items[index].previewUrl := by
        rw [preview?, hrecorded]
        rfl
      rw [hitem, hpreview]
      dsimp only
      rw [ih (index + 1) _ (by omega) (by omega), hreads,
        List.drop_eq_getElem_cons (show index < items.length by omega)]
      simp only [Bool.false_and, Bool.false_eq_true, if_false, List.take_succ_cons, List.map_cons,
        List.reverse_cons, List.append_assoc, List.cons_append, List.nil_append]
      rfl

end Simulator

end Platform

end PlatformProxy
