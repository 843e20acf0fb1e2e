import PlatformProxy.Proofs.Json.Scalar
import PlatformProxy.Rpc.Method

/-!
# What a call asks for

A method reads its parameters out of slots, one after another, and stops at the first that is
wrong. What it comes to does not depend on any of this: a call stands for a command if its
parameters have the right form and each of them is given as a value of its type, by position or by
name. Reading takes a value out of its slot, but no parameter is read twice.

## Main definitions

* `Rpc.argument` — what is given for a parameter
* `Rpc.Fits` — the forms of parameters
* `Rpc.Method.Accepts` — the command that a method makes of what is given
* `Rpc.StandsFor` — the command of a call
* `Rpc.Decides` — something is read if and only if there is something to read

## Main results

* `Rpc.Method.decides_command` — what a method reads
* `Rpc.decides_call`, `Rpc.call_of_unknown` — what comes of a call
-/

namespace PlatformProxy

namespace Rpc

open PlatformProxy.Json (Faithful fromJson? toJson)

/-- What is given for a parameter, by position or by name. -/
def argument (names : List String) (params : Option Json) (index : Nat) : Option Json :=
  match params with
  | some (.array items) => items[index]?
  | some (.object members) => names[index]?.bind fun name => Json.lookup name members
  | _ => none

/-- The forms of parameters for a method that has `count` of them. -/
inductive Fits (count : Nat) : Option Json → Prop
  | absent : Fits count none
  | null : Fits count (some .null)
  | byName (members : List (String × Json)) : Fits count (some (.object members))
  | byPosition (items : List Json) (h : items.length ≤ count) : Fits count (some (.array items))

/-- The command that a method makes of what is given for its parameters. A text to search for may
be absent or null. -/
inductive Method.Accepts (given : Nat → Option Json) : Method → Session.Command → Prop
  | leaderboardRange {name : String} {first last : Int32} (hname : given 0 = some (.string name))
      (hfirst : given 1 = some (.int32 first)) (hlast : given 2 = some (.int32 last)) :
      Accepts given .leaderboardRange (.leaderboard name (.range first last))
  | leaderboardPlayers {name : String} {players : List UserId}
      (hname : given 0 = some (.string name))
      (hplayers : given 1 = some (.array (players.map .natural))) :
      Accepts given .leaderboardPlayers (.leaderboard name (.users players))
  | workshopLevels {maxResults : UInt32} {text : String}
      (hmax : given 0 = some (.uint32 maxResults)) (htext : given 1 = some (.string text)) :
      Accepts given .workshopLevels (.workshop ⟨maxResults, some text⟩)
  | allWorkshopLevels {maxResults : UInt32} (hmax : given 0 = some (.uint32 maxResults))
      (htext : given 1 = none ∨ given 1 = some .null) :
      Accepts given .workshopLevels (.workshop ⟨maxResults, none⟩)
  | personaName {user : UserId} (huser : given 0 = some (.natural user)) :
      Accepts given .personaName (.personaName user)

/-- A call stands for a command. -/
def StandsFor (m : Method) (params : Option Json) (command : Session.Command) : Prop :=
  Fits m.parameters.length params ∧ m.Accepts (argument m.parameters params) command

/-- What is read is what there is to read. If nothing is, the parameters are invalid. -/
structure Decides {α : Type} (R : α → Prop) (result : Except Error α) : Prop where
  ok : ∀ x, result = .ok x ↔ R x
  code : ∀ e, result = .error e → e.code = Error.invalidParamsCode

namespace Decides

variable {α : Type} {R S : α → Prop}

theorem of_ok {x : α} (h : ∀ y, R y ↔ y = x) : Decides R (.ok x) := by
  refine ⟨fun y => ?_, nofun⟩
  rw [h y, Except.ok.injEq, eq_comm]

theorem of_error {e : Error} (hcode : e.code = Error.invalidParamsCode) (h : ∀ x, ¬ R x) :
    Decides R (.error e) := by
  refine ⟨fun x => iff_of_false nofun (h x), fun e' he => ?_⟩
  rwa [← Except.error.inj he]

theorem congr {result : Except Error α} (h : Decides R result) (hiff : ∀ x, R x ↔ S x) :
    Decides S result :=
  ⟨fun x => (h.ok x).trans (hiff x), h.code⟩

end Decides

namespace Params

/-! ### Slots -/

/-- What is in a slot. -/
def slot (p : Params) (index : Nat) : Option Json := (p.values[index]?).join

/-- The slot has been read. -/
def without (p : Params) (index : Nat) : Params := { p with values := p.values.set index none }

theorem slot_without {p : Params} {i j : Nat} (h : i ≠ j) : (p.without i).slot j = p.slot j := by
  rw [slot, without, List.getElem?_set_ne h, slot]

/-! ### Reading one thing after another -/

section Bind

variable {α β : Type} {r : Reading α} {f : α → Reading β} {p p' : Params}

theorem run_bind (r : Reading α) (f : α → Reading β) (p : Params) :
    (r >>= f).run.run p =
      match r.run.run p with
      | (.ok x, p') => (f x).run.run p'
      | (.error e, p') => (.error e, p') := by
  rw [ExceptT.run_bind, StateT.run_bind]
  match r.run.run p with
  | (.ok x, p') => rfl
  | (.error e, p') => rfl

theorem decides_bind {R : α → Prop} {S : α → β → Prop} (hr : Decides R (r.run.run p).1)
    (hp : (r.run.run p).2 = p') (hf : ∀ x, Decides (S x) ((f x).run.run p').1) :
    Decides (fun y => ∃ x, R x ∧ S x y) ((r >>= f).run.run p).1 := by
  rw [run_bind]
  match hrun : r.run.run p with
  | (.ok x, q) =>
    rw [hrun] at hr hp
    subst hp
    refine (hf x).congr fun y => ⟨fun hy => ⟨x, (hr.ok x).mp rfl, hy⟩, ?_⟩
    rintro ⟨x', hx', hy⟩
    rwa [Except.ok.inj ((hr.ok x').mpr hx')]
  | (.error e, q) =>
    rw [hrun] at hr
    refine .of_error (hr.code e rfl) ?_
    rintro y ⟨x, hx, -⟩
    exact absurd ((hr.ok x).mpr hx) nofun

end Bind

/-! ### One parameter -/

variable {α : Type} [Json.Shaped α]

/-- What is read as a parameter that may be absent. -/
def Reads (given : Option Json) : Option α → Prop
  | none => given = none ∨ given = some .null
  | some x => given = some (toJson x)

/-- Reading a parameter empties its slot. -/
theorem run_optional (p : Params) (index : Nat) :
    (optional index : Reading (Option α)).run.run p =
      (match p.slot index with
        | none | some .null => .ok none
        | some v =>
          match fromJson? v with
          | .ok x => .ok (some x)
          | .error m =>
            .error (.invalidParams ("parameter '" ++ p.name index ++ "': " ++ m.message)),
        p.without index) := by
  have hrun : (optional index : Reading (Option α)).run.run p =
      (match p.slot index with
        | none | some .null => pure none
        | some v =>
          match fromJson? v with
          | .ok x => pure (some x)
          | .error m => throw (.invalidParams ("parameter '" ++ p.name index ++ "': " ++ m.message))
        : Reading (Option α)).run.run (p.without index) := rfl
  rw [hrun]
  split
  · rfl
  · rfl
  · split <;> rfl

theorem reads_some_iff (h : Faithful α) {v : Json} {x : α} :
    Reads (some v) (some x) ↔ fromJson? v = .ok x := by
  rw [h.read v x]
  exact ⟨Option.some.inj, congrArg some⟩

theorem decides_optional (h : Faithful α) (p : Params) (index : Nat) :
    Decides (Reads (p.slot index)) ((optional index : Reading (Option α)).run.run p).1 := by
  rw [run_optional]
  dsimp only
  split <;> rename_i hslot <;> rw [hslot]
  · refine .of_ok fun y => ?_
    cases y with
    | none => exact ⟨fun _ => rfl, fun _ => .inl rfl⟩
    | some x => exact ⟨nofun, nofun⟩
  · refine .of_ok fun y => ?_
    cases y with
    | none => exact ⟨fun _ => rfl, fun _ => .inr rfl⟩
    | some x =>
      refine ⟨fun hx => ?_, nofun⟩
      exact absurd (Option.some.inj hx).symm (h.ne_null x)
  · rename_i v hnull
    have hnone : ¬ Reads (some v) (none : Option α) := by
      rintro (hnone | hsome)
      · exact absurd hnone nofun
      · exact hnull (Option.some.inj hsome)
    split <;> rename_i hread
    · refine .of_ok fun y => ?_
      cases y with
      | none => exact ⟨fun hy => absurd hy hnone, nofun⟩
      | some y => rw [reads_some_iff h, hread, Except.ok.injEq, Option.some.injEq, eq_comm]
    · refine .of_error rfl fun y hy => ?_
      cases y with
      | none => exact hnone hy
      | some y =>
        rw [reads_some_iff h, hread] at hy
        exact absurd hy nofun

theorem run_required (p : Params) (index : Nat) :
    (required index : Reading α).run.run p =
      (match ((optional index : Reading (Option α)).run.run p).1 with
        | .ok (some x) => .ok x
        | .ok none => .error (.invalidParams ("missing parameter '" ++ p.name index ++ "'"))
        | .error e => .error e,
        p.without index) := by
  have hrest : ((optional index : Reading (Option α)).run.run p).2 = p.without index := by
    rw [run_optional]
  rw [required, run_bind]
  generalize (optional index : Reading (Option α)).run.run p = run at hrest ⊢
  obtain ⟨result, q⟩ := run
  obtain rfl : q = p.without index := hrest
  match result with
  | .ok (some x) => rfl
  | .ok none => rfl
  | .error e => rfl

theorem decides_required (h : Faithful α) (p : Params) (index : Nat) :
    Decides (fun x : α => p.slot index = some (toJson x))
      ((required index : Reading α).run.run p).1 := by
  have hoptional := decides_optional h p index
  rw [run_required]
  dsimp only
  generalize ((optional index : Reading (Option α)).run.run p).1 = result at hoptional
  match result with
  | .ok (some x) =>
    refine ⟨fun y => Iff.trans ?_ (hoptional.ok (some y)), nofun⟩
    rw [Except.ok.injEq, Except.ok.injEq, Option.some.injEq]
  | .ok none => exact .of_error rfl fun x hx => absurd ((hoptional.ok (some x)).mpr hx) nofun
  | .error e =>
    exact .of_error (hoptional.code e rfl) fun x hx =>
      absurd ((hoptional.ok (some x)).mpr hx) nofun

section Reader

variable {β : Type} {f : α → Reading β} {p : Params} {index : Nat}

theorem decides_required_bind (h : Faithful α) {S : α → β → Prop}
    (hf : ∀ x, Decides (S x) ((f x).run.run (p.without index)).1) :
    Decides (fun y => ∃ x, p.slot index = some (toJson x) ∧ S x y)
      ((required index >>= f).run.run p).1 :=
  decides_bind (decides_required h p index) (by rw [run_required]) hf

theorem decides_pure (x : β) (p : Params) :
    Decides (fun y => y = x) ((pure x : Reading β).run.run p).1 :=
  .of_ok fun _ => Iff.rfl

end Reader

end Params

/-! ### Slots and what is given -/

namespace Params

theorem slot_ofItems (names : List String) (items : List Json) (i : Nat) :
    slot ⟨names, ofItems names items⟩ i = items[i]? := by
  rw [slot, ofItems]
  dsimp only
  rcases Nat.lt_or_ge i items.length with hlt | hge
  · rw [List.getElem?_append_left (by rwa [List.length_map]), List.getElem?_map,
      List.getElem?_eq_getElem hlt]
    rfl
  · rw [List.getElem?_append_right (by rwa [List.length_map]), List.getElem?_eq_none hge,
      List.getElem?_replicate]
    split <;> rfl

/-- A member goes into the slot of its name, as no name is there twice. -/
theorem slot_ofMembers {names : List String} (h : names.Nodup) (members : List (String × Json))
    (i : Nat) :
    ((ofMembers names members)[i]?).join =
      names[i]?.bind fun name => Json.lookup name members := by
  induction names generalizing members i with
  | nil => rfl
  | cons name names ih =>
    obtain ⟨hname, hnames⟩ := List.nodup_cons.mp h
    rw [ofMembers]
    cases i with
    | zero => rfl
    | succ i =>
      rw [List.getElem?_cons_succ, List.getElem?_cons_succ, ih hnames]
      cases hother : names[i]? with
      | none => rfl
      | some other =>
        have hne : other ≠ name := fun heq => hname (heq ▸ List.mem_of_getElem? hother)
        simp only [Option.bind_some, Json.lookup, List.find?_filter]
        congr 2
        funext m
        by_cases hm : m.1 = other
        · simp [hm, hne]
        · simp [hm]

theorem slot_absent (names : List String) (i : Nat) :
    slot ⟨names, names.map fun _ => none⟩ i = none := by
  rw [slot, List.getElem?_map]
  cases names[i]? <;> rfl

/-- Parameters of the right form are put into slots, and others are invalid. -/
theorem parse_cases {names : List String} (h : names.Nodup) (params : Option Json) :
    (Fits names.length params ∧
        ∃ p, parse params names = .ok p ∧ p.slot = argument names params) ∨
      (¬ Fits names.length params ∧
        ∃ e, parse params names = .error e ∧ e.code = Error.invalidParamsCode) := by
  match params with
  | none => exact .inl ⟨.absent, _, rfl, funext (slot_absent names)⟩
  | some .null => exact .inl ⟨.null, _, rfl, funext (slot_absent names)⟩
  | some (.object members) =>
    exact .inl ⟨.byName members, _, rfl, funext (slot_ofMembers h members)⟩
  | some (.array items) =>
    rw [parse]
    split
    · rename_i hlength
      refine .inr ⟨fun hfits => ?_, _, rfl, rfl⟩
      cases hfits with
      | byPosition _ hle => exact absurd hlength (Nat.not_lt.mpr hle)
    · rename_i hlength
      exact .inl ⟨.byPosition items (Nat.not_lt.mp hlength), _, rfl,
        funext (slot_ofItems names items)⟩
  | some (.bool b) => exact .inr ⟨nofun, _, rfl, rfl⟩
  | some (.number n) => exact .inr ⟨nofun, _, rfl, rfl⟩
  | some (.string s) => exact .inr ⟨nofun, _, rfl, rfl⟩

end Params

/-! ### Commands -/

namespace Method

open Params

/-- **A method reads the command that it makes of what is in its slots.** -/
theorem decides_command (m : Method) (p : Params) :
    Decides (m.Accepts p.slot) (m.command.run.run p).1 := by
  have h₁ : (p.without 0).slot 1 = p.slot 1 := slot_without (by decide)
  have h₂ : ((p.without 0).without 1).slot 2 = p.slot 2 := by
    rw [slot_without (by decide), slot_without (by decide)]
  cases m with
  | leaderboardRange =>
    refine (decides_required_bind Json.faithful_string fun name =>
      decides_required_bind Json.faithful_int32 fun first =>
      decides_required_bind Json.faithful_int32 fun last => decides_pure _ _).congr
        fun command => ?_
    rw [h₁, h₂]
    constructor
    · rintro ⟨name, hname, first, hfirst, last, hlast, rfl⟩
      exact .leaderboardRange hname hfirst hlast
    · rintro (h : Accepts _ _ _)
      cases h with
      | leaderboardRange hname hfirst hlast => exact ⟨_, hname, _, hfirst, _, hlast, rfl⟩
  | leaderboardPlayers =>
    refine (decides_required_bind Json.faithful_string fun name =>
      decides_required_bind (Json.faithful_list Json.faithful_nat64) fun players =>
      decides_pure _ _).congr fun command => ?_
    rw [h₁]
    constructor
    · rintro ⟨name, hname, players, hplayers, rfl⟩
      rw [Json.toJson_list] at hplayers
      exact .leaderboardPlayers hname hplayers
    · rintro (h : Accepts _ _ _)
      cases h with
      | @leaderboardPlayers _ players hname hplayers =>
        refine ⟨_, hname, players, ?_, rfl⟩
        rw [Json.toJson_list]
        exact hplayers
  | workshopLevels =>
    refine (decides_required_bind Json.faithful_nat32 fun maxResults =>
      decides_bind (decides_optional Json.faithful_string _ 1) rfl fun text =>
      decides_pure _ _).congr fun command => ?_
    rw [h₁]
    constructor
    · rintro ⟨maxResults, hmax, text, htext, rfl⟩
      cases text with
      | none => exact .allWorkshopLevels hmax htext
      | some text => exact .workshopLevels hmax htext
    · rintro (h : Accepts _ _ _)
      cases h with
      | workshopLevels hmax htext => exact ⟨_, hmax, some _, htext, rfl⟩
      | allWorkshopLevels hmax htext => exact ⟨_, hmax, none, htext, rfl⟩
  | personaName =>
    refine (decides_required_bind Json.faithful_nat64 fun user => decides_pure _ _).congr
      fun command => ?_
    constructor
    · rintro ⟨user, huser, rfl⟩
      exact .personaName huser
    · rintro (h : Accepts _ _ _)
      cases h with
      | personaName huser => exact ⟨_, huser, rfl⟩

theorem nodup_parameters (m : Method) : m.parameters.Nodup := by
  cases m <;> decide

theorem ofName?_name (m : Method) : ofName? m.name = some m := by
  cases m <;> decide

theorem name_injective {m m' : Method} (h : m.name = m'.name) : m = m' :=
  Option.some.inj ((ofName?_name m).symm.trans (h ▸ ofName?_name m'))

theorem ofName?_eq_none {name : String} (h : ∀ m : Method, m.name ≠ name) :
    ofName? name = none := by
  rw [ofName?, List.find?_eq_none]
  intro m _
  rw [decide_eq_true_eq]
  exact h m

end Method

/-- **A call of a method has the command that it stands for.** -/
theorem decides_call (m : Method) (params : Option Json) :
    Decides (StandsFor m params) (call m.name params) := by
  rw [call, Method.ofName?_name]
  dsimp only
  obtain ⟨hfits, p, hparse, hslots⟩ | ⟨hnot, e, hparse, hcode⟩ :=
    Params.parse_cases m.nodup_parameters params
  · rw [hparse]
    dsimp only
    refine (m.decides_command p).congr fun command => ?_
    rw [hslots, StandsFor, and_iff_right hfits]
  · rw [hparse]
    exact .of_error hcode fun command hstands => hnot hstands.1

theorem call_of_unknown {name : String} (h : ∀ m : Method, m.name ≠ name) (params : Option Json) :
    call name params = .error (.methodNotFound name) := by
  rw [call, Method.ofName?_eq_none h]

end Rpc

end PlatformProxy
