import PlatformProxy.Proofs.Json.Depth
import PlatformProxy.Proofs.Rpc.Calling

/-!
# Which calls are answered

A caller waits for the response with the number of its call and passes over all others. Any method
name and any JSON value can be sent. The text of a request is read unless it nests too deep: the
request takes one level, the parameters have the others. Up to there the response carries the number
of the call and can be read, whatever the parameters are and whatever the session answers, so the
caller takes it. Past that point the request is no JSON to the service. It is answered without an
id, and the caller passes over the answer to its own call.

## Main definitions

* `Rpc.Params.Bare` — a reader whose errors carry no data
* `Rpc.RespondsUnder` — there is a response, and it can be read under an id

## Main results

* `Rpc.isRequest_of_depth`, `Rpc.not_isJson_of_depth` — which requests are read as such
* `Rpc.exists_respondsUnder` — a message with an id is answered under it, by what can be read
* `Rpc.Caller.responses_reach_calls_within_depth` — when a response reaches its call
-/

namespace PlatformProxy

namespace Rpc

open Json (Reads)

/-! ### Requests -/

section Request

variable {d : Nat} (id : UInt64) (method : String) (params : Json)

/-- The members of the text of a request. -/
def requestTexts : List (String × List Char) :=
  [("jsonrpc", Json.stringChars version), ("id", (Json.natural id).chars),
    ("method", Json.stringChars method), ("params", params.chars)]

theorem charsOf_request : Json.charsOf (Request.new id method params) =
    '\x7b' :: Json.commaSeparated ((requestTexts id method params).map Json.memberText) ++
      ['\x7d'] := rfl

/-- The members of a request, once its parameters have been read. -/
theorem reads_request {v : Json} (h : Reads (Json.readValue d) params.chars v) :
    Reads (Json.readValue (d + 1)) (Json.charsOf (Request.new id method params))
      (.object [("id", .natural id), ("jsonrpc", .string version), ("method", .string method),
        ("params", v)]) := by
  rw [charsOf_request]
  refine Json.reads_object ?_
  refine .next (fun _ => Json.readMember_of_reads (Json.reads_string d _) _ _) ?_
  refine .next (fun _ => Json.readMember_of_reads (Json.reads_natural d _) _ _) ?_
  refine .next (fun _ => Json.readMember_of_reads (Json.reads_string d _) _ _) ?_
  refine .next (fun _ => Json.readMember_of_reads h _ _) ?_
  exact .done _

theorem isRequest_of_depth (h : params.depth < Json.maxDepth) :
    ∃ params', IsRequest (Json.bytesOf (Request.new id method params))
      ⟨version, some (.natural id), method, params'⟩ := by
  have hv := Json.reads_reread (Nat.le_of_lt_succ h)
  refine ⟨if params.reread = .null then none else some params.reread, _,
    Json.readWhole_encode (reads_request id method params hv), fun _ => nofun, ?_⟩
  cases params.reread <;> rfl

theorem not_isJson_of_depth (h : Json.maxDepth ≤ params.depth) :
    ¬ IsJson (Json.bytesOf (Request.new id method params)) := by
  have hsettles : ∀ m ∈ requestTexts id method params,
      Json.Settles (Json.readValue (Json.maxDepth - 1)) m.2 := by
    simp only [requestTexts, List.forall_mem_cons]
    exact ⟨.inl ⟨_, Json.reads_string _ _⟩, .inl ⟨_, Json.reads_natural _ _⟩,
      .inl ⟨_, Json.reads_string _ _⟩, .inr (Json.fails_of_lt_depth h), nofun⟩
  have hfails : Json.Fails (Json.readValue Json.maxDepth)
      (Json.charsOf (Request.new id method params)) := by
    rw [charsOf_request]
    exact Json.fails_object hsettles ⟨("params", params.chars), by simp [requestTexts],
      Json.fails_of_lt_depth h⟩
  rintro ⟨v, hv⟩
  exact Json.readWhole_of_fails hfails v hv

end Request

/-! ### Errors -/

namespace Params

variable {α β : Type}

/-- A reader whose errors carry no data. -/
def Bare (r : Reading α) : Prop := ∀ p e, (r.run.run p).1 = .error e → e.data = none

theorem bare_bind {r : Reading α} {f : α → Reading β} (hr : Bare r) (hf : ∀ x, Bare (f x)) :
    Bare (r >>= f) := by
  intro p e h
  rw [run_bind] at h
  match hrun : r.run.run p with
  | (.ok x, p') =>
    rw [hrun] at h
    exact hf x p' e h
  | (.error e', p') =>
    rw [hrun] at h
    obtain rfl := Except.error.inj h
    exact hr p e' (congrArg Prod.fst hrun)

theorem bare_pure (x : α) : Bare (pure x : Reading α) := fun _ _ => nofun

variable [Json.Shaped α]

theorem bare_optional (index : Nat) : Bare (optional index : Reading (Option α)) := by
  intro p e h
  rw [run_optional] at h
  dsimp only at h
  split at h
  · cases h
  · cases h
  · split at h
    · cases h
    · obtain rfl := Except.error.inj h
      rfl

theorem bare_required (index : Nat) : Bare (required index : Reading α) := by
  intro p e h
  rw [run_required] at h
  dsimp only at h
  split at h
  · cases h
  · obtain rfl := Except.error.inj h
    rfl
  · rename_i e' he'
    obtain rfl := Except.error.inj h
    exact bare_optional index p e' he'

end Params

open Params in
theorem Method.bare_command (m : Method) : Bare m.command := by
  cases m with
  | leaderboardRange =>
    exact bare_bind (bare_required 0) fun _ => bare_bind (bare_required 1) fun _ =>
      bare_bind (bare_required 2) fun _ => bare_pure _
  | leaderboardPlayers =>
    exact bare_bind (bare_required 0) fun _ => bare_bind (bare_required 1) fun _ => bare_pure _
  | workshopLevels =>
    exact bare_bind (bare_required 0) fun _ => bare_bind (bare_optional 1) fun _ => bare_pure _
  | personaName => exact bare_bind (bare_required 0) fun _ => bare_pure _

theorem data_of_parse {params : Option Json} {names : List String} {e : Error}
    (h : Params.parse params names = .error e) : e.data = none := by
  rw [Params.parse.eq_def] at h
  split at h
  · cases h
  · cases h
  · split at h
    · obtain rfl := Except.error.inj h
      rfl
    · cases h
  · cases h
  · obtain rfl := Except.error.inj h
    rfl

theorem data_of_call {method : String} {params : Option Json} {e : Error}
    (h : call method params = .error e) : e.data = none := by
  rw [call] at h
  split at h
  · obtain rfl := Except.error.inj h
    rfl
  · split at h
    · rename_i hparse
      obtain rfl := Except.error.inj h
      exact data_of_parse hparse
    · exact Method.bare_command _ _ _ h

theorem data_of_requestOf {body : Bytes} {e : Error} (h : requestOf body = .error e) :
    e.data = none := by
  rw [requestOf] at h
  split at h
  · obtain rfl := Except.error.inj h
    rfl
  · obtain rfl := Except.error.inj h
    rfl
  · rename_i v _ _
    cases hread : (Json.fromJson? v : Except Json.Mismatch Request) with
    | ok r =>
      rw [hread] at h
      cases h
    | error m =>
      rw [hread] at h
      obtain rfl := Except.error.inj h
      rfl

theorem error_of_bind {α β : Type} {x : Except Error α} {f : α → Except Error β} {e : Error}
    (h : x.bind f = .error e) : x = .error e ∨ ∃ a, x = .ok a ∧ f a = .error e := by
  cases x with
  | error e' => exact .inl (congrArg Except.error (Except.error.inj h))
  | ok a => exact .inr ⟨a, rfl, h⟩

/-- **No error carries data.** -/
theorem data_of_outcome {answers : Session.Command → Session.Outcome} {body : Bytes} {e : Error}
    (h : outcome answers body = .error e) : e.data = none := by
  rcases error_of_bind h with h | ⟨c, -, h⟩
  · rcases error_of_bind h with h | ⟨r, -, h⟩
    · exact data_of_requestOf h
    · exact data_of_call h
  · cases hanswer : answers c with
    | ok reply =>
      rw [hanswer] at h
      cases h
    | error q =>
      rw [hanswer] at h
      obtain rfl := Except.error.inj h
      rfl

/-! ### Results -/

theorem depth_ofMembers_le {members : List (String × Json)} {d : Nat}
    (h : ∀ m ∈ members, m.2.depth ≤ d) : (Json.ofMembers members).depth ≤ d + 1 :=
  Json.depth_object_le.mpr fun m hm =>
    h m (by simpa using Json.mem_foldl_insertMember hm)

theorem depth_real (x : Floating .double) : (Json.real x).depth = 0 := by
  rw [Json.real]
  split <;> rfl

theorem depth_list_le {α : Type} [Json.Shaped α] {xs : List α} {d : Nat}
    (h : ∀ x ∈ xs, (Json.toJson x).depth ≤ d) : (Json.toJson xs).depth ≤ d + 1 := by
  rw [Json.toJson_list, Json.depth_array_le]
  exact List.forall_mem_map.mpr h

theorem depth_entryRecord_le (r : EntryRecord) : (Json.toJson r).depth ≤ 1 := by
  refine depth_ofMembers_le ?_
  iterate 4 refine List.forall_mem_cons.mpr ⟨Nat.zero_le _, ?_⟩
  exact nofun

/-- Tags are the only list in the record of a level. -/
theorem depth_levelRecord_le (r : LevelRecord) : (Json.toJson r).depth ≤ 2 := by
  have htags : ((Json.Shape.list .text).toJson r.tags).depth ≤ 1 := by
    rw [Json.Shape.toJson, Json.depth_array_le]
    exact List.forall_mem_map.mpr fun _ _ => Nat.le_refl 0
  refine depth_ofMembers_le ?_
  iterate 10 refine List.forall_mem_cons.mpr ⟨Nat.zero_le _, ?_⟩
  refine List.forall_mem_cons.mpr ⟨(depth_real _).trans_le (Nat.zero_le _), ?_⟩
  refine List.forall_mem_cons.mpr ⟨htags, ?_⟩
  iterate 2 refine List.forall_mem_cons.mpr ⟨Nat.zero_le _, ?_⟩
  exact nofun

/-- **Results are not deep.** -/
theorem depth_result_le (reply : Session.Reply) : (result reply).depth ≤ 3 := by
  cases reply with
  | leaderboard standings =>
    have hentries : (Json.toJson (BoardRecord.ofResult standings).entries).depth ≤ 2 :=
      depth_list_le fun r _ => depth_entryRecord_le r
    refine depth_ofMembers_le ?_
    exact List.forall_mem_cons.mpr ⟨hentries, List.forall_mem_singleton.mpr (Nat.zero_le _)⟩
  | workshop entries => exact depth_list_le fun r _ => depth_levelRecord_le r
  | personaName name => exact Nat.zero_le _

theorem depth_outcome_le {answers : Session.Command → Session.Outcome} {body : Bytes} {v : Json}
    (h : outcome answers body = .ok v) : v.depth ≤ 3 := by
  obtain ⟨c, -, h⟩ := Json.exists_of_bind_eq_ok h
  cases hanswer : answers c with
  | error q =>
    rw [hanswer] at h
    cases h
  | ok reply =>
    rw [hanswer] at h
    obtain rfl := Except.ok.inj h
    exact depth_result_le reply

/-! ### Responses -/

/-- A response with a result can be read. -/
theorem exists_fromText_success {id v : Json} (hid : id.depth < Json.maxDepth)
    (h : v.depth < Json.maxDepth) :
    ∃ result : Option Json, result.getD .null = v.reread ∧
      Json.fromText (Json.bytesOf (Response.success id v)) =
        .ok (⟨version, id.reread, result, none⟩ : Response) := by
  obtain ⟨slot, hvalue, hslot⟩ := Json.exists_reads_optional (Nat.le_of_lt_succ h)
  have hid' : Reads (Json.Shape.any.read (Json.maxDepth - 1)) id.chars id.reread :=
    (Json.reads_reread (Nat.le_sub_one_of_lt hid)).congr fun _ => by rw [Json.Shape.read]
  have hversion : Reads (Json.Shape.text.read (Json.maxDepth - 1)) (Json.stringChars version)
      version :=
    (Json.reads_readText .text version).congr fun _ => by rw [Json.Shape.read]
  -- The fields come in the order in which they are declared.
  have hread : Reads ((Json.Shaped.shape Response).read Json.maxDepth)
      (Json.charsOf (Response.success id v)) (version, id.reread, some slot, none, ()) := by
    have hmembers : Json.charsOf (Response.success id v) =
        '\x7b' :: Json.commaSeparated ([("jsonrpc", Json.stringChars version), ("id", id.chars),
          ("result", v.chars)].map Json.memberText) ++ ['\x7d'] := rfl
    rw [hmembers]
    refine Json.reads_members ⟨(some version, some id.reread, some slot, none, ()), ?_, rfl⟩
    refine .next (fun _ => Json.readMember_self hversion _) (Json.gathers_behind ?_ (by simp))
    refine .next (fun _ => Json.readMember_self hid' _) (Json.gathers_behind ?_ (by simp))
    refine .next (fun _ => Json.readMember_self hslot _) (Json.gathers_behind ?_ (by simp))
    exact .done _
  refine ⟨slot, hvalue, ?_⟩
  rw [Json.fromText, Json.bytesOf, Json.readWhole_encode hread]
  rfl

/-- There is a response, its text can be read, and it is under an id. -/
structure RespondsUnder (answers : Session.Command → Session.Outcome) (body : Bytes) (id : Json)
    (response : Response) : Prop where
  given : (handle answers body).response = some response
  under : response.id = id
  read : ∃ r : Response, Json.fromText (Json.bytesOf response) = .ok r ∧ r.id = id

/-- **Responses can be read.** -/
theorem exists_respondsUnder (answers : Session.Command → Session.Outcome) {body : Bytes}
    {id : Json} (hid : responseId body = some id) (hplain : id.Plain (Json.maxDepth - 1)) :
    ∃ response, RespondsUnder answers body id response := by
  have hhandle := handle_eq answers body
  rw [hid] at hhandle
  cases houtcome : outcome answers body with
  | error e =>
    rw [houtcome] at hhandle
    have hread := Json.fromText_bytesOf (legible_failure hplain (data_of_outcome houtcome))
    exact ⟨.failure id e, congrArg Answer.response hhandle, rfl, _, hread, rfl⟩
  | ok v =>
    rw [houtcome] at hhandle
    obtain ⟨result, -, hread⟩ := exists_fromText_success
      (Nat.lt_succ_of_le (Json.depth_le_of_plain hplain))
      (Nat.lt_of_le_of_lt (depth_outcome_le houtcome) (by decide))
    rw [Json.reread_of_plain hplain] at hread
    exact ⟨.success id v, congrArg Answer.response hhandle, rfl, _, hread, rfl⟩

theorem RespondsUnder.isSome_match? {answers : Session.Command → Session.Outcome} {body : Bytes}
    {id : Json} {response : Response} (h : RespondsUnder answers body id response) (c : Caller)
    (α : Type) [Json.Shaped α] :
    (c.match? (Json.bytesOf response) : Option (Except CallError α)).isSome =
      decide (id = .natural c.latest) := by
  obtain ⟨r, hread, rfl⟩ := h.read
  rw [Caller.match?, hread]
  dsimp only
  split <;> rename_i hid
  · exact (decide_eq_true hid).symm
  · exact (decide_eq_false hid).symm

theorem responseId_of_not_isJson {body : Bytes} (h : ¬ IsJson body) :
    responseId body = some .null := by
  obtain ⟨-, e, he, -⟩ | ⟨hjson, -⟩ | ⟨r, hr, -⟩ := requestOf_cases body
  · rw [responseId, he]
  · exact absurd hjson h
  · exact absurd hr.isJson h

/-- The id under which a request is answered depends on the depth of its parameters alone. -/
theorem responseId_request (id : UInt64) (method : String) (params : Json) :
    responseId (Json.bytesOf (Request.new id method params)) =
      some (if params.depth < Json.maxDepth then .natural id else .null) := by
  split <;> rename_i hdepth
  · obtain ⟨params', hrequest⟩ := isRequest_of_depth id method params hdepth
    exact responseId_of_isRequest hrequest
  · exact responseId_of_not_isJson (not_isJson_of_depth id method params (Nat.not_lt.mp hdepth))

/-! ### Calls -/

namespace Caller

/-- **A response reaches its call if and only if the parameters are not too deep.** Whatever the
session answers, there is a response, and it can be read. Within the limit it carries the number of
the call, and the caller takes it. Past the limit it has no id, and the caller passes over it. -/
theorem responses_reach_calls_within_depth (answers : Session.Command → Session.Outcome)
    (c : Caller) (method : String) (params : Json) :
    ∃ response,
      RespondsUnder answers (Json.bytesOf (c.request method params))
        (if params.depth < Json.maxDepth then .natural (c.begin method params).2.latest else .null)
        response ∧
      ∀ (α : Type) [Json.Shaped α],
        ((c.begin method params).2.match? (Json.bytesOf response) :
          Option (Except CallError α)).isSome = decide (params.depth < Json.maxDepth) := by
  obtain ⟨response, hresponse⟩ := exists_respondsUnder answers
    (responseId_request (c.latest + 1) method params) (by split <;> constructor)
  refine ⟨response, hresponse, fun α _ => ?_⟩
  rw [hresponse.isSome_match? (c.begin method params).2 α, decide_eq_decide]
  split <;> rename_i hdepth
  · exact iff_of_true rfl hdepth
  · exact iff_of_false nofun hdepth

/-- Arrays within one another. -/
def nested : Nat → Json
  | 0 => .array []
  | n + 1 => .array [nested n]

theorem depth_nested (n : Nat) : (nested n).depth = n + 1 := by
  induction n with
  | zero => rfl
  | succ n ih => rw [nested, Json.depth, Json.itemsDepth, Json.itemsDepth, ih, Nat.max_zero]

/-- The response to a call whose parameters take all levels there are has no id. The caller goes on
waiting. -/
theorem deep_call_waits_on :
    (nested 126).depth = Json.maxDepth ∧ ∀ answers, ∃ response,
      (handle answers (Json.bytesOf (new.request "GetPersonaName" (nested 126)))).response =
        some response ∧
      response.id = .null ∧
      ((new.begin "GetPersonaName" (nested 126)).2.match? (Json.bytesOf response) :
        Option (Except CallError String)) = none := by
  refine ⟨depth_nested 126, fun answers => ?_⟩
  have hid := responseId_request 1 "GetPersonaName" (nested 126)
  rw [depth_nested, if_neg (by decide)] at hid
  obtain ⟨response, hresponse⟩ := exists_respondsUnder answers hid .null
  refine ⟨response, hresponse.given, hresponse.under, Option.not_isSome_iff_eq_none.mp ?_⟩
  rw [hresponse.isSome_match?, decide_eq_true_eq]
  exact nofun

end Caller

end Rpc

end PlatformProxy
