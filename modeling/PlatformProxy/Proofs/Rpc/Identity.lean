import PlatformProxy.Proofs.Json.Records
import PlatformProxy.Proofs.Rpc.Classification

/-!
# The id of a request

A caller tells its calls apart by their ids, and any JSON value will do, with one exception. A null
id is read as no id, because an optional member may always be null. Such a request is a
notification, as if its id were not there: it is executed, and nobody is told.

## Main definitions

* `Rpc.idOf` — the id in the members of a request

## Main results

* `Rpc.Request.id_of_members` — the id of a request as it is read
* `Rpc.answered_under_id` — a request is answered if and only if it has an id that is not null, and
  it is answered under that id
-/

namespace PlatformProxy

namespace Rpc

/-- The id in the members of a request, unless it is null. -/
def idOf (members : List (String × Json)) : Option Json :=
  (Json.lookup "id" members).filter fun id => id ≠ .null

theorem idOf_eq_some_iff {members : List (String × Json)} {id : Json} :
    idOf members = some id ↔ Json.lookup "id" members = some id ∧ id ≠ .null := by
  rw [idOf, Option.filter_eq_some_iff, decide_eq_true_eq]

/-- What fills the field of the id. -/
theorem join_of_fills {members : List (String × Json)} {slot : Option (Option Json)}
    (h : Json.Fills (.optional .any) (members.filter fun m => m.1 = "id") slot) :
    slot.join = idOf members := by
  rw [idOf, Json.lookup, ← List.head?_filter]
  cases hsame : members.filter fun m => m.1 = "id" with
  | nil =>
    rw [hsame, Json.fills_nil_iff] at h
    rw [h]
    rfl
  | cons m others =>
    rw [hsame, Json.fills_cons_iff] at h
    obtain ⟨-, x, hx, rfl⟩ := h
    rw [List.head?_cons, Option.map_some, Option.filter_some]
    cases hm : m.2 with
    | null =>
      rw [hm] at hx
      obtain rfl := Except.ok.inj hx
      rfl
    | _ =>
      rw [hm] at hx
      obtain rfl := Except.ok.inj hx
      rfl

/-- **The id of a request** is the member of that name unless it is null. -/
theorem Request.id_of_members {members : List (String × Json)} {r : Request}
    (h : Json.fromJson? (.object members) = .ok r) : r.id = idOf members := by
  obtain ⟨values, hvalues, rfl⟩ := Json.exists_of_map_eq_ok h
  obtain ⟨⟨jsonrpc, id, method, params, _⟩, hslots, hcomplete⟩ :=
    Json.ofJson_record_eq_ok_iff.mp hvalues
  obtain ⟨-, hrest⟩ := Json.ofMemberList_eq_ok_iff.mp hslots
  obtain ⟨hid, -⟩ := Json.ofMemberList_eq_ok_iff.mp hrest
  have hsame : ((members.filter fun m => m.1 ≠ "jsonrpc").filter fun m => m.1 = "id") =
      members.filter fun m => m.1 = "id" := by
    rw [List.filter_filter]
    refine List.filter_congr fun m _ => ?_
    by_cases hm : m.1 = "id" <;> simp [hm]
  rw [hsame] at hid
  rw [← join_of_fills hid]
  cases method with
  | none => exact absurd hcomplete nofun
  | some method =>
    obtain rfl := Except.ok.inj hcomplete
    rfl

/-- **A request is answered under its id**, and not at all if the id is absent or null. -/
theorem answered_under_id (answers : Session.Command → Session.Outcome) {body : Bytes}
    {members : List (String × Json)} {r : Request}
    (hparse : Json.parse body = .ok (.object members))
    (hread : Json.fromJson? (.object members) = .ok r) :
    (∀ id, (∃ response, (handle answers body).response = some response ∧ response.id = id) ↔
      Json.lookup "id" members = some id ∧ id ≠ .null) ∧
    ((handle answers body).response = none ↔
      Json.lookup "id" members = none ∨ Json.lookup "id" members = some .null) := by
  have hid : responseId body = idOf members := by
    rw [responseId_of_isRequest ⟨_, hparse, nofun, hread⟩, Request.id_of_members hread]
  have hresponse : ∀ result, ∃ make : Json → Response, (∀ id, (make id).id = id) ∧
      (Answer.ofResult (idOf members) result).response = (idOf members).map make := by
    rintro (e | v)
    · exact ⟨fun id => .failure id e, fun _ => rfl, rfl⟩
    · exact ⟨fun id => .success id v, fun _ => rfl, rfl⟩
  rw [handle_eq, hid]
  obtain ⟨make, hmake, hmap⟩ := hresponse (outcome answers body)
  rw [hmap]
  refine ⟨fun id => ?_, ?_⟩
  · rw [← idOf_eq_some_iff]
    simp [hmake]
  · rw [Option.map_eq_none_iff, idOf, Option.filter_eq_none_iff]
    cases Json.lookup "id" members <;> simp

/-- A call with an id. -/
def numberedCall : Bytes :=
  Utf8.ofString "\x7b\"id\":7,\"method\":\"GetPersonaName\",\"params\":[9]\x7d"

/-- The response to a call with an id. -/
theorem numberedCall_answered :
    Json.parse numberedCall =
        .ok (.object [("id", .natural 7), ("method", .string "GetPersonaName"),
          ("params", .array [.natural 9])]) ∧
    ∃ response, (handle (fun _ => .ok (.personaName "Nine")) numberedCall).response =
      some response ∧ response.id = .natural 7 := by
  have hparse : Json.parse numberedCall = .ok (.object [("id", .natural 7),
      ("method", .string "GetPersonaName"), ("params", .array [.natural 9])]) := by
    decide +kernel
  exact ⟨hparse, ((answered_under_id _ hparse
    (r := ⟨version, some (.natural 7), "GetPersonaName", some (.array [.natural 9])⟩)
    (by decide +kernel)).1 (.natural 7)).mpr ⟨by decide +kernel, nofun⟩⟩

/-- The same call with a null id. -/
def nullCall : Bytes :=
  Utf8.ofString "\x7b\"id\":null,\"method\":\"GetPersonaName\",\"params\":[9]\x7d"

/-- The id of a call may be there, and the call be a notification. -/
theorem nullCall_not_answered :
    Json.parse nullCall = .ok (.object [("id", .null), ("method", .string "GetPersonaName"),
      ("params", .array [.natural 9])]) ∧
    Json.fromJson? (.object [("id", .null), ("method", .string "GetPersonaName"),
      ("params", .array [.natural 9])]) =
        .ok (⟨version, none, "GetPersonaName", some (.array [.natural 9])⟩ : Request) ∧
    ∀ answers, (handle answers nullCall).response = none := by
  have hnotification : isNotification nullCall = true := by decide +kernel
  refine ⟨by decide +kernel, by decide +kernel, fun answers => ?_⟩
  rw [← Option.isNone_iff_eq_none, isNone_response, hnotification]

end Rpc

end PlatformProxy
