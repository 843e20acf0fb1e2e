import PlatformProxy.Platform.Snapshot
import PlatformProxy.Text.Utf8
import PlatformProxy.Yaml.Reading

/-!
# Files of recorded platform states

A snapshot is a YAML document with boards by name, Workshop items and names by user. What is
recorded under a key later replaces what was recorded before, but a board keeps its place.

## Main definitions

* `Platform.Snapshot.ofNode?` — the snapshot of a document
* `Platform.Snapshot.LoadError` — why there is no snapshot
* `Platform.Snapshot.load` — the snapshot of a file's contents

## Implementation notes

The fields of an item are read as values of whatever kind before they are sorted out. A title
that looks like a number is therefore refused, while a board or a user of such a name is not.
The address of the preview is the exception.
-/

namespace PlatformProxy

namespace Platform

open Yaml (Node Core Value)

namespace Row

def ofNode? (n : Node) : Option Row := do
  let fields ← n.fields? ["steam_id", "score"]
  let user ← (← fields.lookup "steam_id").natural? UInt64.size
  let score ← (← fields.lookup "score").integer? Int32.minValue.toInt (Int32.maxValue.toInt + 1)
  pure ⟨UInt64.ofNat user, Int32.ofInt score⟩

end Row

namespace RecordedItem

/-- The names of an item's fields but for the preview. -/
def fieldNames : List String :=
  ["published_file_id", "steam_id_owner", "file_name", "title", "description", "time_created",
    "time_updated", "file_size", "votes_up", "votes_down", "score", "tags"]

/-- How a field of an item is read. -/
abbrev Reader (α : Type) : Type := Core → Option α

def readInteger (least bound : Int) : Reader Int
  | .integer i => if least ≤ i ∧ i < bound then some i else none
  | _ => none

def readUInt64 : Reader UInt64 := fun c => (readInteger 0 UInt64.size c).map fun i => .ofNat i.toNat

def readUInt32 : Reader UInt32 := fun c => (readInteger 0 UInt32.size c).map fun i => .ofNat i.toNat

def readInt32 : Reader Int32 := fun c =>
  (readInteger Int32.minValue.toInt (Int32.maxValue.toInt + 1) c).map Int32.ofInt

def readText : Reader String
  | .text s => some s
  | _ => none

/-- An integer is rounded once, any other number by way of a double. -/
def readSingle : Reader (Floating .single)
  | .integer i => some (Floating.ofInt .single i)
  | .real x => some (x.convert .single)
  | _ => none

/-- Read a field that has to be there. -/
def required {α : Type} (values : List (String × Value)) (name : String) (read : Reader α) :
    Option α :=
  match values.lookup name with
  | some (.scalar c) => read c
  | _ => none

/-- Read a field that may be left out. -/
def withDefault {α : Type} (values : List (String × Value)) (name : String) (read : Reader α)
    (default : α) : Option α :=
  match values.lookup name with
  | none => some default
  | some (.scalar c) => read c
  | some .collection => none

/-- How deep the values of an item's fields may be nested. -/
def maxDepth : Nat := 125

def ofNode? (n : Node) : Option RecordedItem := do
  let fields ← n.fields? ("preview_url" :: fieldNames)
  let previewUrl ← match fields.lookup "preview_url" with
    | none => some ""
    | some n => n.text?
  let values ← (fields.filter fun f => f.1 ≠ "preview_url").mapM fun (name, n) =>
    (n.value? maxDepth).map (name, ·)
  let item : Item :=
    { publishedFile := ← required values "published_file_id" readUInt64
      owner := ← required values "steam_id_owner" readUInt64
      fileName := ← required values "file_name" readText
      title := ← required values "title" readText
      description := ← withDefault values "description" readText ""
      created := ← required values "time_created" readUInt32
      updated := ← required values "time_updated" readUInt32
      fileSize := ← required values "file_size" readInt32
      votesUp := ← withDefault values "votes_up" readUInt32 0
      votesDown := ← withDefault values "votes_down" readUInt32 0
      score := ← withDefault values "score" readSingle (Floating.zero .single false)
      tags := ← withDefault values "tags" readText "" }
  pure ⟨item, previewUrl⟩

end RecordedItem

namespace Snapshot

/-- Read a part that may be left out. -/
def part? {α : Type} (fields : List (String × Node)) (name : String) (read : Node → Option α)
    (default : α) : Option α :=
  match fields.lookup name with
  | none => some default
  | some n => read n

def readBoards? (n : Node) : Option (List (String × List Row)) := do
  let boards ← (← n.members?).mapM fun (name, n) => do
    pure (name, ← (← n.items?).mapM Row.ofNode?)
  pure (boards.foldl (fun acc (name, rows) => assign name rows acc) [])

def readPersonas? (n : Node) : Option (List (UserId × String)) := do
  let personas ← (← n.pairs?).mapM fun (key, value) => do
    pure (UInt64.ofNat (← key.natural? UInt64.size), ← value.text?)
  pure (personas.foldl (fun acc (user, name) => assign user name acc) [])

/-- The snapshot of a document. -/
def ofNode? (n : Node) : Option Snapshot := do
  let fields ← n.fields? ["app_id", "leaderboards", "workshop", "personas"]
  let app ← part? fields "app_id" (Node.optional? (Node.natural? UInt32.size)) none
  let boards ← part? fields "leaderboards" readBoards? []
  let items ← part? fields "workshop" (fun n => n.items?.bind (·.mapM RecordedItem.ofNode?)) []
  let personas ← part? fields "personas" readPersonas? []
  pure ⟨app.map UInt32.ofNat, boards, items, personas⟩

/-! ### Files -/

/-- Why there is no snapshot, with a reason that the system or the format gives. -/
inductive LoadError
  | unreadable (path reason : String)
  | malformed (path reason : String)
  deriving DecidableEq, Repr

namespace LoadError

def message : LoadError → String
  | unreadable path _ => "Failed to read platform snapshot: " ++ path
  | malformed path _ => "Failed to parse platform snapshot: " ++ path

def reason : LoadError → String
  | unreadable _ reason => reason
  | malformed _ reason => reason

end LoadError

/-- The snapshot of a text. A text without a document is an empty snapshot. -/
def ofText (text : List Char) : Except String Snapshot :=
  match Yaml.documents .classic text with
  | .error f => .error f.problem
  | .ok [] => .ok empty
  | .ok [n] => (ofNode? n).elim (.error "unexpected value") .ok
  | .ok (_ :: _ :: _) => .error "more than one document"

/-- The snapshot of a file; its contents are there unless the system had a reason to refuse. -/
def load (path : String) (contents : Except String Bytes) : Except LoadError Snapshot :=
  match contents with
  | .error reason => .error (.unreadable path reason)
  | .ok bytes =>
    match Utf8.decode bytes with
    | .error _ => .error (.unreadable path "stream did not contain valid UTF-8")
    | .ok text => (ofText text).mapError (.malformed path)

end Snapshot

end Platform

end PlatformProxy
