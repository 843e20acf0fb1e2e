import PlatformProxy.Proofs.Platform.Transcript
import PlatformProxy.Query.Leaderboard
import PlatformProxy.Query.Workshop

/-!
# Reading rows

The rows of a download and the items of a page are read in the same way: from the first on, each
with a few calls, up to a number of rows or to one that cannot be read. What the loops make of the
rows differs, and so do the calls. That each of them makes its calls in this order, whatever the
client answers, is shown once.

A client takes the index of a row in 32 bits. Nothing is lost by that, as the number of rows is
itself read from 32 bits.

## Main definitions

* `Query.reading` — the calls that read some rows
* `Query.ReadsRows` — one round of a loop that reads rows
* `Query.Workshop.Row` — an item of a page as a client gave it

## Main results

* `Query.ReadsRows.performs` — such a loop reads all rows, or those before the first that is missing
* `Query.Leaderboard.readsRows`, `Query.Workshop.readsRows` — the two loops
-/

namespace PlatformProxy

namespace Query

open Platform
open Program (Performs)

/-- The calls that read rows one after the other, the first of them at an index. -/
def reading {Row : Type} (calls : Row → Nat → List Answered) (rows : List Row) (index : Nat) :
    List Answered :=
  (rows.zipIdx index).flatMap fun r => calls r.1 r.2

section Loop

variable {Row Acc Out : Type}

/-- A loop over rows ends with a result, or it reads the row at an index and goes on behind it, or
that row is missing. -/
structure ReadsRows (loop : (count index : Nat) → Acc → Program Out)
    (calls : Row → Nat → List Answered) (missing : Nat → Answered) (gather : Acc → Row → Acc)
    (all : Acc → Out) (cut : Nat → Acc → Out) : Prop where
  zero : ∀ index acc, loop 0 index acc = fun _ _ => pure (all acc)
  succ : ∀ {σ : Type} [Client σ] (count index : Nat) (acc : Acc) (c : σ),
    (∃ c', (loop (count + 1) index acc).Performs c [missing index] (cut index acc) c') ∨
    ∃ row c₁, ∀ {more out c'},
      (loop count (index + 1) (gather acc row)).Performs c₁ more out c' →
      (loop (count + 1) index acc).Performs c (calls row index ++ more) out c'

variable {loop : (count index : Nat) → Acc → Program Out} {calls : Row → Nat → List Answered}
  {missing : Nat → Answered} {gather : Acc → Row → Acc} {all : Acc → Out} {cut : Nat → Acc → Out}
  {σ : Type} [Client σ]

/-- **Rows are read in order, and none behind one that is missing.** -/
theorem ReadsRows.performs (h : ReadsRows loop calls missing gather all cut) (count index : Nat)
    (acc : Acc) (c : σ) :
    ∃ rows c',
      (rows.length = count ∧ (loop count index acc).Performs c (reading calls rows index)
        (all (rows.foldl gather acc)) c') ∨
      (rows.length < count ∧ (loop count index acc).Performs c
        (reading calls rows index ++ [missing (index + rows.length)])
        (cut (index + rows.length) (rows.foldl gather acc)) c') := by
  induction count generalizing index acc c with
  | zero =>
    refine ⟨[], c, .inl ⟨rfl, ?_⟩⟩
    rw [h.zero]
    exact .pure _ c
  | succ count ih =>
    obtain ⟨c', hmissing⟩ | ⟨row, c₁, hrow⟩ := h.succ count index acc c
    · exact ⟨[], c', .inr ⟨Nat.succ_pos count, hmissing⟩⟩
    · obtain ⟨rows, c', hrest⟩ := ih (index + 1) (gather acc row) c₁
      have hindex : index + (row :: rows).length = index + 1 + rows.length := by
        rw [List.length_cons]
        omega
      have hreading : reading calls (row :: rows) index =
          calls row index ++ reading calls rows (index + 1) := rfl
      refine ⟨row :: rows, c', ?_⟩
      rw [hindex, hreading, List.append_assoc]
      obtain ⟨hlength, hall⟩ | ⟨hlength, hcut⟩ := hrest
      · exact .inl ⟨congrArg (· + 1) hlength, hrow hall⟩
      · exact .inr ⟨Nat.succ_lt_succ hlength, hrow hcut⟩

end Loop

/-! ### The rows of a download -/

namespace Leaderboard

/-- The calls that read a row and the name of its user. -/
def rowCalls (entries : DownloadRef) (row : NamedEntry) (index : Nat) : List Answered :=
  [⟨.entry entries (Int32.ofNat index), some row.entry⟩,
    ⟨.personaName row.entry.user, row.playerName⟩]

/-- The call that finds a row missing. -/
def noRow (entries : DownloadRef) (index : Nat) : Answered :=
  ⟨.entry entries (Int32.ofNat index), none⟩

theorem readsRows (entries : DownloadRef) :
    ReadsRows (fun count index acc _ _ => readEntries entries count index acc) (rowCalls entries)
      (noRow entries) (fun acc row => row :: acc) (fun acc => .ok acc.reverse)
      fun index _ => .error index where
  zero _ _ := rfl
  succ count index acc c := by
    obtain ⟨answer, c₁, hentry⟩ := Performs.make (.entry entries (Int32.ofNat index)) c
    cases answer with
    | none => exact .inl ⟨c₁, hentry.bind (.pure _ c₁)⟩
    | some entry =>
      obtain ⟨playerName, c₂, hname⟩ := Performs.make (.personaName entry.user) c₁
      refine .inr ⟨⟨entry, playerName⟩, c₂, fun hrest => ?_⟩
      refine hentry.bind ?_
      exact hname.bind hrest

end Leaderboard

/-! ### The items of a page -/

namespace Workshop

/-- An item of a page with the name of its owner and the address of its preview, if it has one. -/
structure Row where
  item : Item
  authorName : String
  preview : Option String

namespace Row

/-- What a search makes of an item. -/
def level (r : Row) : Level := ⟨r.item, r.authorName, r.preview.getD ""⟩

/-- The calls that read an item, the name of its owner and its preview. -/
def calls (page : PageRef) (r : Row) (index : Nat) : List Answered :=
  [⟨.item page (UInt32.ofNat index), some r.item⟩, ⟨.personaName r.item.owner, r.authorName⟩,
    ⟨.preview page (UInt32.ofNat index), r.preview⟩]

def gather (acc : Gathered) (r : Row) : Gathered :=
  ⟨r.level :: acc.entries, match r.preview with
    | some _ => acc.warnings
    | none => .noPreview r.item.publishedFile :: acc.warnings⟩

theorem entries_foldl_gather (rows : List Row) (acc : Gathered) :
    (rows.foldl gather acc).entries = (rows.map level).reverse ++ acc.entries := by
  induction rows generalizing acc with
  | nil => rfl
  | cons row rows ih =>
    rw [List.foldl_cons, ih, List.map_cons, List.reverse_cons, List.append_assoc]
    rfl

end Row

/-- The call that finds an item missing. -/
def noItem (page : PageRef) (index : Nat) : Answered := ⟨.item page (UInt32.ofNat index), none⟩

theorem readsRows (page : PageRef) :
    ReadsRows (fun count index acc _ _ => readItems page count index acc) (Row.calls page)
      (noItem page) Row.gather (fun acc => (none, acc)) fun index acc => (some index, acc) where
  zero _ _ := rfl
  succ count index acc c := by
    obtain ⟨answer, c₁, hitem⟩ := Performs.make (.item page (UInt32.ofNat index)) c
    cases answer with
    | none => exact .inl ⟨c₁, hitem.bind (.pure _ c₁)⟩
    | some item =>
      obtain ⟨authorName, c₂, hname⟩ := Performs.make (.personaName item.owner) c₁
      obtain ⟨preview, c₃, hpreview⟩ := Performs.make (.preview page (UInt32.ofNat index)) c₂
      refine .inr ⟨⟨item, authorName, preview⟩, c₃, fun hrest => ?_⟩
      refine hitem.bind ?_
      refine hname.bind ?_
      exact hpreview.bind hrest

end Workshop

end Query

end PlatformProxy
