import PlatformProxy.Platform.SnapshotFile
import PlatformProxy.Proofs.Json.Rereading
import PlatformProxy.Proofs.Rpc.Identity
import PlatformProxy.Proofs.Rpc.Reaching

/-!
# Levels on their way to a caller

A search that succeeds is answered by the list of its levels. The caller reads the response and then
its result, at the type of levels. If the scores are finite, all levels arrive, with all their
fields. There is no JSON for any other score, so null is written in its place, and no level is read
from that. One such level, and the caller gets an error instead of the list.

A snapshot may have such a score: a file of one can say that it is infinite.

## Main definitions

* `Rpc.LevelRecord.SameButScore` — levels that may differ in their scores

## Main results

* `Rpc.IsRequest.depth_id_lt` — an id can be written again
* `Rpc.LevelRecord.fromJson?_reread_list` — which lists of levels are read
* `Rpc.level_answers_are_read_back` — the responses to searches, on the side of the caller
* `Rpc.infinite_score_is_not_read_back` — and one that is not read

## Implementation notes

Of a score that arrives nothing is said here but that it does. It goes through text as a double, and
doubles are not always read as they were written.
-/

namespace PlatformProxy

namespace Rpc

open Json (Fills)

/-! ### Ids -/

/-- The id of a request leaves a level of depth for the response. -/
theorem IsRequest.depth_id_lt {body : Bytes} {r : Request} (h : IsRequest body r) {id : Json}
    (hid : r.id = some id) : id.depth < Json.maxDepth := by
  obtain ⟨v, hparse, harray, hread⟩ := h
  have hdepth := Json.depth_le_of_parse hparse
  cases v with
  | array items => exact absurd rfl (harray items)
  | object members =>
    rw [Request.id_of_members hread, idOf_eq_some_iff] at hid
    obtain ⟨m, hm, rfl⟩ := Option.map_eq_some_iff.mp hid.1
    exact Nat.lt_succ_of_le (Json.depth_object_le.mp hdepth m (List.mem_of_find?_eq_some hm))
  | _ => cases hread

/-! ### Records -/

namespace LevelRecord

/-- The levels are the same, up to their scores. -/
def SameButScore (r r' : LevelRecord) : Prop := ∃ score, r' = { r with score }

theorem fills_reread {shape : Json.Shape} {name : String} {d : Nat} {v : shape.Value}
    (h : shape.Plain d v) : Fills shape [(name, (shape.toJson v).reread)] (some v) :=
  .present (Json.ofJson_reread_of_plain h)

/-- A level with a finite score is read, with some score. -/
theorem exists_fromJson?_reread {r : LevelRecord} (h : r.score.isFinite = true) :
    ∃ score, Json.fromJson? (Json.toJson r).reread = .ok { r with score } := by
  obtain ⟨score, hscore⟩ := (Json.exists_ofJson_reread_single_iff r.score).mpr h
  have htags : (Json.Shape.list .text).Plain 1 r.tags := fun _ _ => trivial
  refine ⟨score, ?_⟩
  have hrecord : (Json.Shaped.shape LevelRecord).ofJson (Json.toJson r).reread =
      .ok (Json.Shaped.toValue { r with score }) := by
    refine (Json.ofJson_reread_record_eq_ok_iff (by decide)).mpr
      ⟨(some r.publishedFile, some r.owner, some r.fileName, some r.title, some r.description,
        some r.created, some r.updated, some r.fileSize, some r.votesUp, some r.votesDown,
        some score, some r.tags, some r.authorName, some r.previewUrl, ()), ?_, rfl⟩
    have hplain {shape : Json.Shape} {name : String} {v : shape.Value} (h : shape.Plain 0 v) :
        Fills shape [(name, (shape.toJson v).reread)] (some v) := fills_reread h
    exact ⟨hplain trivial, hplain trivial, hplain trivial, hplain trivial, hplain trivial,
      hplain trivial, hplain trivial, hplain trivial, hplain trivial, hplain trivial,
      .present hscore, fills_reread htags, hplain trivial, hplain trivial, trivial⟩
  rw [Json.fromJson?, hrecord]
  rfl

/-- Nothing else is read as a level. -/
theorem isFinite_of_fromJson?_reread {r r' : LevelRecord}
    (h : Json.fromJson? (Json.toJson r).reread = .ok r') : r.score.isFinite = true := by
  obtain ⟨values, hvalues, -⟩ := Json.exists_of_map_eq_ok h
  obtain ⟨slots, hslots, -⟩ := (Json.ofJson_reread_record_eq_ok_iff (by decide)).mp hvalues
  -- The score is the field behind the first ten.
  obtain ⟨-, -, -, -, -, -, -, -, -, -, hscore, -⟩ := hslots
  obtain ⟨-, score, hscore, -⟩ := Json.fills_cons_iff.mp hscore
  exact (Json.exists_ofJson_reread_single_iff r.score).mp ⟨score, hscore⟩

theorem reread_list (rs : List LevelRecord) :
    (Json.toJson rs).reread = .array (rs.map fun r => (Json.toJson r).reread) := by
  rw [Json.toJson_list, Json.reread, Json.rereadItems_eq, List.map_map]
  rfl

/-- **Levels are read if and only if their scores are finite**, and then as themselves, up to the
scores. -/
theorem fromJson?_reread_list (rs : List LevelRecord) :
    ((∀ r ∈ rs, r.score.isFinite = true) → ∃ rs', Json.fromJson? (Json.toJson rs).reread = .ok rs' ∧
      List.Forall₂ SameButScore rs rs') ∧
    ((∃ rs' : List LevelRecord, Json.fromJson? (Json.toJson rs).reread = .ok rs') →
      ∀ r ∈ rs, r.score.isFinite = true) := by
  rw [reread_list]
  constructor
  · intro hfinite
    have : Nonempty (Floating .single) := ⟨.zero _ false⟩
    choose! score hscore using fun r hr => exists_fromJson?_reread (hfinite r hr)
    refine ⟨rs.map fun r => { r with score := score r }, ?_, ?_⟩
    · rw [Json.fromJson?_array_eq_ok_iff, List.forall₂_map_left_iff, List.forall₂_map_right_iff,
        List.forall₂_same]
      exact hscore
    · rw [List.forall₂_map_right_iff, List.forall₂_same]
      exact fun r _ => ⟨score r, rfl⟩
  · rintro ⟨rs', hrs'⟩
    rw [Json.fromJson?_array_eq_ok_iff, List.forall₂_map_left_iff] at hrs'
    exact ((List.forall₂_and_left rs rs').mp
      (hrs'.imp fun _ _ h => ⟨isFinite_of_fromJson?_reread h, h⟩)).1

end LevelRecord

/-! ### Responses -/

theorem resultAs_of_read {α : Type} [Json.Shaped α] {r : Response} {v : Json}
    (herror : r.error = none) (hvalue : r.result.getD .null = v) :
    (r.resultAs : Except Error α) = (Json.fromJson? v).mapError Error.malformedResult := by
  rw [Response.resultAs, herror, hvalue]
  cases (Json.fromJson? v : Except Json.Mismatch α) <;> rfl

/-- **Levels are read back unless a score is not finite.** Whatever has become of the session when
the levels for a message are found, there is a response under the id of the message, and it can be
read. The levels in it are those that were found, up to their scores, if all their scores are
finite. Otherwise they are not read. -/
theorem level_answers_are_read_back {σ : Type} [Platform.Client σ] (x y : Exchange σ) {body : Bytes}
    {search : Query.Search} {found : List Query.Level} {id : Json}
    (hcommand : commandOf body = .ok (.workshop search)) (hid : responseId body = some id)
    (hfound : y.session.outcome? x.session.nextTicket = some (.ok (.workshop found))) :
    ∃ response response' : Response,
      y.answer? (x.submit body).1 = some ⟨true, some response⟩ ∧ response.id = id ∧
        Json.fromText (Json.bytesOf response) = .ok response' ∧
        ((∀ level ∈ found, level.item.score.isFinite = true) →
          ∃ levels, response'.resultAs = .ok levels ∧
            List.Forall₂ LevelRecord.SameButScore (found.map LevelRecord.ofEntry) levels) ∧
        ((∃ level ∈ found, level.item.score.isFinite = false) →
          ∃ m, (response'.resultAs : Except Error (List LevelRecord)) =
            .error (.malformedResult m)) := by
  obtain ⟨r, hrequest, -⟩ := (checked body).eq_ok_iff.mp hcommand
  have hdepth : id.depth < Json.maxDepth :=
    hrequest.depth_id_lt ((responseId_of_isRequest hrequest).symm.trans hid)
  obtain ⟨result', hvalue, hread⟩ := exists_fromText_success hdepth
    (Nat.lt_of_le_of_lt (depth_result_le (.workshop found)) (by decide))
  obtain ⟨hfinite, hall⟩ := LevelRecord.fromJson?_reread_list (found.map LevelRecord.ofEntry)
  rw [List.forall_mem_map] at hfinite hall
  have hresult : ((⟨version, id.reread, result', none⟩ : Response).resultAs :
      Except Error (List LevelRecord)) = _ := resultAs_of_read rfl hvalue
  refine ⟨.success id (result (.workshop found)), _, ?_, rfl, hread, fun h => ?_, ?_⟩
  · rw [x.submit_of_ok hcommand, Exchange.answer?, hfound, hid]
    rfl
  · obtain ⟨levels, hlevels, hsame⟩ := hfinite h
    exact ⟨levels, by rw [hresult, result, hlevels]; rfl, hsame⟩
  · rintro ⟨level, hlevel, hinfinite⟩
    rw [hresult]
    cases hlevels : (Json.fromJson? (result (.workshop found)).reread :
      Except Json.Mismatch (List LevelRecord)) with
    | error m => exact ⟨m, rfl⟩
    | ok levels =>
      have hfinite := hall ⟨levels, hlevels⟩ level hlevel
      exact absurd (hfinite.symm.trans hinfinite) (by decide)

/-- A platform with one level, of some score. -/
def scoredSnapshot (score : Floating .single) : Platform.Snapshot :=
  { Platform.Snapshot.empty with
    items := [⟨⟨1, 7, "level", "Cave", "", 90, 90, 1, 0, 0, score, "Hard,Sprint"⟩, "preview"⟩] }

/-- That level as it is found. -/
def scoredLevel (score : Floating .single) : Query.Level :=
  ⟨⟨1, 7, "level", "Cave", "", 90, 90, 1, 0, 0, score, "Hard,Sprint"⟩, "[unknown]", "preview"⟩

/-- A session on that platform. -/
def scoredSession (score : Floating .single) : Session Platform.Simulator :=
  ⟨{ Platform.Simulator.new (scoredSnapshot score) with isStarted := true }, ⟨480, ["Sprint"]⟩, 0,
    [], [], [], 0, true⟩

/-- A search as a message. -/
def searchMessage : Bytes :=
  Utf8.ofString "\x7b\"id\":3,\"method\":\"GetWorkshopLevels\",\"params\":[5]\x7d"

/-- A half. -/
def half : Floating .single := .ofRatio .single false 1 2

/-- A level with a finite score is found, and arrives. -/
theorem half_score_is_read_back :
    Session.start (.new (scoredSnapshot half)) ⟨480, ["Sprint"]⟩ = .ok (scoredSession half) ∧
      commandOf searchMessage = .ok (.workshop ⟨5, none⟩) ∧
      responseId searchMessage = some (.natural 3) ∧
      (((scoredSession half).send (.workshop ⟨5, none⟩)).2.settle 3).outcome? 0 =
        some (.ok (.workshop [scoredLevel half])) ∧
      ∃ response response' levels,
        Exchange.answer? ⟨((scoredSession half).send (.workshop ⟨5, none⟩)).2.settle 3, .zero⟩
            (Exchange.submit ⟨scoredSession half, .zero⟩ searchMessage).1 =
          some ⟨true, some response⟩ ∧
        Json.fromText (Json.bytesOf response) = .ok response' ∧
        Response.resultAs response' = .ok levels ∧
        List.Forall₂ LevelRecord.SameButScore [LevelRecord.ofEntry (scoredLevel half)] levels := by
  have hcommand : commandOf searchMessage = .ok (.workshop ⟨5, none⟩) := by decide +kernel
  have hid : responseId searchMessage = some (.natural 3) := by decide +kernel
  have hfound : (((scoredSession half).send (.workshop ⟨5, none⟩)).2.settle 3).outcome? 0 =
      some (.ok (.workshop [scoredLevel half])) := by
    decide +kernel
  have hfinite : ∀ level ∈ [scoredLevel half], level.item.score.isFinite = true := by
    decide +kernel
  obtain ⟨response, response', hanswer, -, hread, hlevels, -⟩ :=
    level_answers_are_read_back ⟨scoredSession half, .zero⟩ ⟨_, .zero⟩ hcommand hid hfound
  obtain ⟨levels, hlevels, hsame⟩ := hlevels hfinite
  exact ⟨rfl, hcommand, hid, hfound, response, response', levels, hanswer, hread, hlevels, hsame⟩

/-- A snapshot as a file, with a level whose score is infinite. -/
def infiniteFile : String :=
  "workshop:\n- published_file_id: 1\n  steam_id_owner: 7\n  file_name: level\n  title: Cave\n" ++
    "  time_created: 90\n  time_updated: 90\n  file_size: 1\n  score: .inf\n" ++
    "  tags: Hard,Sprint\n  preview_url: preview\n"

/-- A level with an infinite score is found, and does not arrive. The response is read as it was
written, with null for the score. -/
theorem infinite_score_is_not_read_back :
    Platform.Snapshot.ofText infiniteFile.toList = .ok (scoredSnapshot (.infinity _ false)) ∧
      Session.start (.new (scoredSnapshot (.infinity _ false))) ⟨480, ["Sprint"]⟩ =
        .ok (scoredSession (.infinity _ false)) ∧
      (((scoredSession (.infinity _ false)).send (.workshop ⟨5, none⟩)).2.settle 3).outcome? 0 =
        some (.ok (.workshop [scoredLevel (.infinity _ false)])) ∧
      ∃ response,
        (Exchange.handleAll ⟨scoredSession (.infinity _ false), .zero⟩ 3 [searchMessage]).1 =
          [some ⟨true, some response⟩] ∧
        Json.fromText (Json.bytesOf response) = .ok response ∧
        (response.resultAs : Except Error (List LevelRecord)) =
          .error (.malformedResult (.wrongType .null "f32")) :=
  ⟨by decide +kernel, rfl, by decide +kernel,
    .success (.natural 3) (result (.workshop [scoredLevel (.infinity _ false)])),
    by decide +kernel, by decide +kernel, by decide +kernel⟩

end Rpc

end PlatformProxy
