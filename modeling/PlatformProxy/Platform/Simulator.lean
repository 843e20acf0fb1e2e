import PlatformProxy.Platform.Snapshot
import PlatformProxy.Tags
import PlatformProxy.Text.Lowercase

/-!
# A client that serves a snapshot

A stand-in for the platform's library. Its calls complete at the next collection, and Workshop
queries are paged like those of the platform. Kinds of calls can be made to fail.

## Main definitions

* `Platform.Outage` — the calls that can be made to fail
* `Platform.Simulator` — the state of the client
* `Platform.Simulator.isMatch` — whether an item matches a page request
* `Platform.Simulator.catalog` — the matching items in the order of the platform

## Implementation notes

Handles of all kinds are drawn from one counter. What a call prepares gets its handle before the
call does.
-/

namespace PlatformProxy

namespace Platform

/-- The calls that can be made to fail. -/
inductive Outage
  | findBoard
  | download
  | readRow
  | requestPage
  | readItem
  deriving DecidableEq, Repr

/-- The state of the client. -/
structure Simulator where
  snapshot : Snapshot
  failures : List Outage
  startupFailure : Option StartError
  isStarted : Bool
  /-- The last handle that was drawn. -/
  lastId : Nat
  /-- Completions nobody has collected. -/
  completions : List (CallRef × Completion)
  downloads : List (DownloadRef × List Entry)
  pages : List (PageRef × List RecordedItem)
  pagesRequested : Nat

namespace Simulator

def new (snapshot : Snapshot) : Simulator :=
  { snapshot
    failures := []
    startupFailure := none
    isStarted := false
    lastId := 0
    completions := []
    downloads := []
    pages := []
    pagesRequested := 0 }

def fails (c : Simulator) (point : Outage) : Bool := c.failures.contains point

/-- Draw the next handle. -/
def draw (c : Simulator) : Nat × Simulator :=
  (c.lastId + 1, { c with lastId := c.lastId + 1 })

/-- A call that completes at the next collection. -/
def enqueue (c : Simulator) (completion : Completion) : CallRef × Simulator :=
  let (id, c) := c.draw
  (⟨id⟩, { c with completions := c.completions ++ [(⟨id⟩, completion)] })

/-! ### Leaderboards -/

/-- Rows with their ranks, which begin at `rank`. -/
def ranked (rank : Nat) : List Row → List Entry
  | [] => []
  | row :: rest => ⟨row.user, Int32.ofNat rank, row.score⟩ :: ranked (rank + 1) rest

/-- All rows of a board with their ranks. -/
def entries (c : Simulator) (board : BoardRef) : List Entry :=
  ranked 1 ((c.snapshot.rows? board).getD [])

def findBoard (c : Simulator) (name : String) : CallRef × Simulator :=
  c.enqueue (.boardFound
    (if c.fails .findBoard then .error {} else .ok (c.snapshot.findBoard? name)))

def entryCount (c : Simulator) (board : BoardRef) : Int32 :=
  Int32.ofNat ((c.snapshot.rows? board).getD []).length

/-- Make rows ready to be read. -/
def download (c : Simulator) (rows : List Entry) : CallRef × Simulator :=
  if c.fails .download then c.enqueue (.downloaded (.error {}))
  else
    let (id, c) := c.draw
    let c := { c with downloads := (⟨id⟩, rows) :: c.downloads }
    c.enqueue (.downloaded (.ok ⟨⟨id⟩, Int32.ofNat rows.length⟩))

def downloadRange (c : Simulator) (board : BoardRef) (first last : Int32) :
    CallRef × Simulator :=
  c.download ((c.entries board).filter fun e => first ≤ e.rank && e.rank ≤ last)

/-- The rows of some users in rank order, as many as one download may name. -/
def downloadUsers (c : Simulator) (board : BoardRef) (users : List UserId) :
    CallRef × Simulator :=
  c.download (((c.entries board).filter fun e => users.contains e.user).take usersPerDownload)

def entry? (c : Simulator) (entries : DownloadRef) (index : Int32) : Option Entry :=
  if c.fails .readRow || index < 0 then none
  else (c.downloads.find? fun d => d.1 = entries).bind fun d => d.2[index.toInt.toNat]?

def releaseEntries (c : Simulator) (entries : DownloadRef) : Simulator :=
  { c with downloads := c.downloads.filter fun d => d.1 ≠ entries }

/-! ### Workshop items -/

/-- Whether one text occurs in another. -/
def occursIn (needle : List Char) : List Char → Bool
  | [] => needle.isEmpty
  | c :: rest => needle.isPrefixOf (c :: rest) || occursIn needle rest

/-- Whether an item has the tags that are asked for. No tags are always there. -/
def hasTags (request : PageRequest) (item : Item) : Bool :=
  let tags := Tags.pieces item.tags
  if request.requiredTags.isEmpty then true
  else if request.matchAnyTag then request.requiredTags.any tags.contains
  else request.requiredTags.all tags.contains

/-- Whether an item's title or description contains a text, in any letter case. -/
def hasText (text : Option String) (item : Item) : Bool :=
  match text with
  | none => true
  | some text =>
    let needle := Text.lower text.toList
    text.isEmpty || occursIn needle (Text.lower item.title.toList) ||
      occursIn needle (Text.lower item.description.toList)

/-- Whether an item of an application matches a request. -/
def isMatch (request : PageRequest) (app : Option AppId) (item : Item) : Bool :=
  app.all (· = request.consumerApp) && hasTags request item && hasText request.searchText item

/-- Newer items come first; of items created at the same time, those with larger numbers. -/
def precedes (a b : RecordedItem) : Bool :=
  b.item.created < a.item.created ||
    (a.item.created = b.item.created && b.item.publishedFile ≤ a.item.publishedFile)

/-- The matching items, in order. -/
def catalog (s : Snapshot) (request : PageRequest) : List RecordedItem :=
  (s.items.filter fun r => isMatch request s.app r.item).mergeSort precedes

/-- How many items a page has. -/
def pageSize : Nat := 50

/-- How many items come before a page, limited to 32 bits. -/
def pageStart (page : UInt32) : Nat := min ((page.toNat - 1) * pageSize) (UInt32.size - 1)

def requestPage (c : Simulator) (request : PageRequest) : CallRef × Simulator :=
  let c := { c with pagesRequested := c.pagesRequested + 1 }
  if c.fails .requestPage then c.enqueue (.pageCompleted (.error {}))
  else
    let found := catalog c.snapshot request
    let items := (found.drop (pageStart request.page)).take pageSize
    let (id, c) := c.draw
    let c := { c with pages := (⟨id⟩, items) :: c.pages }
    c.enqueue (.pageCompleted
      (.ok ⟨⟨id⟩, UInt32.ofNat items.length, UInt32.ofNat found.length⟩))

/-- A recorded item of an open page. -/
def recorded? (c : Simulator) (page : PageRef) (index : UInt32) : Option RecordedItem :=
  (c.pages.find? fun p => p.1 = page).bind fun p => p.2[index.toNat]?

def item? (c : Simulator) (page : PageRef) (index : UInt32) : Option Item :=
  if c.fails .readItem then none else (c.recorded? page index).map RecordedItem.item

def preview? (c : Simulator) (page : PageRef) (index : UInt32) : Option String :=
  (c.recorded? page index).map RecordedItem.previewUrl

def releasePage (c : Simulator) (page : PageRef) : Simulator :=
  { c with pages := c.pages.filter fun p => p.1 ≠ page }

/-! ### The life of the client -/

/-- Start the client; a failure prepared for this happens once. -/
def start (c : Simulator) : Except StartError Unit × Simulator :=
  match c.startupFailure with
  | some e => (.error e, { c with startupFailure := none })
  | none => (.ok (), { c with isStarted := true })

def stop (c : Simulator) : Simulator :=
  { c with isStarted := false, completions := [], downloads := [], pages := [] }

/-- Completions are kept for later while the client is not started. -/
def collect (c : Simulator) : List (CallRef × Completion) × Simulator :=
  if c.isStarted then (c.completions, { c with completions := [] }) else ([], c)

end Simulator

instance : Client Simulator where
  start := Simulator.start
  stop := fun c => ((), c.stop)
  findBoard name := fun c => c.findBoard name
  entryCount board := fun c => (c.entryCount board, c)
  downloadRange board first last := fun c => c.downloadRange board first last
  downloadUsers board users := fun c => c.downloadUsers board users
  entry entries index := (fun c => c.entry? entries index) <$> get
  releaseEntries entries := fun c => ((), c.releaseEntries entries)
  requestPage request := fun c => c.requestPage request
  item page index := fun c => (c.item? page index, c)
  preview page index := fun c => (c.preview? page index, c)
  releasePage page := fun c => ((), c.releasePage page)
  personaName user := fun c => (c.snapshot.personaName user, c)
  collect := Simulator.collect

end Platform

end PlatformProxy
