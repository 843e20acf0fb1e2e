import PlatformProxy.Query.Basic

/-!
# Workshop searches

A Workshop search collects items page by page until enough are there, the platform has no more,
or a page comes back empty. The last condition makes every search end, whatever total the
platform reports.

## Main definitions

* `Query.Search`, `Query.Scope` — what is searched for, and where
* `Query.Workshop` — a search that waits for a page
* `Query.Workshop.opening` — a search at its first page
* `Query.Workshop.start`, `Query.Workshop.advance` — its steps
-/

namespace PlatformProxy

namespace Query

open Platform

/-- What a caller searches for. -/
structure Search where
  maxResults : UInt32
  /-- Without a text, or with an empty one, everything matches. -/
  searchText : Option String
  deriving DecidableEq, Repr

/-- The part of the Workshop that is searched: items of an application with one of some tags. -/
structure Scope where
  app : AppId
  requiredTags : List String
  deriving DecidableEq, Repr

/-- An item with the name of its author and the address of its preview image. -/
structure Level where
  item : Item
  authorName : String
  previewUrl : String
  deriving DecidableEq, Repr

/-- A search that waits for a page. -/
structure Workshop where
  scope : Scope
  searchText : Option String
  page : Nat
  /-- How many items are still wanted. -/
  remaining : Nat
  /-- The items so far. -/
  results : List Level
  deriving DecidableEq, Repr

namespace Workshop

variable {σ : Type} [Client σ]

abbrev Step : Type := Query.Step Workshop (List Level)

def fail (query : Workshop) (error : Error) (warnings : List Warning) : Step :=
  ⟨.done (.error error), warnings ++ [.searchFailed query.page error]⟩

/-- The request for the page a search stands at. -/
def request (query : Workshop) : PageRequest :=
  { order := .newestFirst
    matching := .readyToUse
    creatorApp := query.scope.app
    consumerApp := query.scope.app
    page := UInt32.ofNat query.page
    requiredTags := query.scope.requiredTags
    matchAnyTag := true
    searchText := query.searchText }

def requestPage (query : Workshop) (warnings : List Warning) : StateM σ Step := do
  let call ← Client.requestPage query.request
  pure ⟨.await call query, warnings⟩

/-- A search that stands at its first page. -/
def opening (scope : Scope) (search : Search) : Workshop :=
  { scope
    searchText := search.searchText.filter fun text => !text.isEmpty
    page := 1
    remaining := search.maxResults.toNat
    results := [] }

/-- Ask for the first page, unless nothing is wanted. -/
def start (scope : Scope) (search : Search) : StateM σ Step :=
  let query := opening scope search
  if query.remaining = 0 then pure (.done []) else query.requestPage []

/-- What reading a page has given so far, latest first. -/
structure Gathered where
  entries : List Level
  warnings : List Warning

/-- Read `count` items from `index` on, or up to the first that cannot be read, whose index comes
with what was gathered. -/
def readItems (page : PageRef) :
    (count index : Nat) → Gathered → StateM σ (Option Nat × Gathered)
  | 0, _, acc => pure (none, acc)
  | count + 1, index, acc => do
    match ← Client.item page (UInt32.ofNat index) with
    | none => pure (some index, acc)
    | some item =>
      let authorName ← Client.personaName item.owner
      let preview ← Client.preview page (UInt32.ofNat index)
      let warnings := match preview with
        | some _ => acc.warnings
        | none => .noPreview item.publishedFile :: acc.warnings
      let entry : Level := ⟨item, authorName, preview.getD ""⟩
      readItems page count (index + 1) ⟨entry :: acc.entries, warnings⟩

/-- What is said about an item that cannot be read. -/
def unreadable (page index : Nat) : Error :=
  .unreadable
    ("Error retrieving workshop result " ++ toString index ++ " of page " ++ toString page)

/-- Read and release a page, then stop or ask for the next one. -/
def read (query : Workshop) (summary : PageSummary) : StateM σ Step := do
  let wanted := min query.remaining summary.returned.toNat
  let (failed, gathered) ← readItems summary.page wanted 0 ⟨[], []⟩
  Client.releasePage summary.page
  let warnings := gathered.warnings.reverse
  match failed with
  | some index => pure (query.fail (unreadable query.page index) warnings)
  | none =>
    let results := query.results ++ gathered.entries.reverse
    let remaining := query.remaining - wanted
    if summary.total.toNat ≤ results.length ∨ remaining = 0 ∨ summary.returned = 0 then
      pure ⟨.done (.ok results), warnings⟩
    else
      requestPage { query with page := query.page + 1, remaining, results } warnings

/-- Go on after a completion. -/
def advance (query : Workshop) (completion : Completion) : StateM σ Step :=
  match completion with
  | .pageCompleted (.ok summary) => query.read summary
  | .pageCompleted (.error _) => pure (query.fail .callFailed [])
  | other => pure (query.fail (.wrongCompletion
      CompletionKind.pageCompleted.name other.kind.name) [])

end Workshop

end Query

end PlatformProxy
