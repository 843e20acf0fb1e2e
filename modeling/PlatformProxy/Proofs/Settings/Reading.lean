import PlatformProxy.Settings.Reading

/-!
# Settings one by one

Settings are read section by section, and a section field by field. What one of them comes to does
not depend on the others, so settings can be read if each of them can be read by itself, and if
what stands in the place of a section is one. A section is a table, which has its fields under
their names, or a list, which has them in order.

To set a setting is to set a member of its section, which is a table then. If it was a table before,
its other members are still there. If it was a list, they are gone.

## Main definitions

* `Settings.Setting` — the settings
* `Settings.Setting.get`, `Settings.Setting.read?` — what has been set, and how a value is read
* `Settings.Setting.of?` — what a setting comes to
* `Settings.Readable` — every setting comes to something

## Main results

* `Settings.ofValue?_table_eq_some_iff` — settings are read one by one
* `Settings.Setting.value?_set_self`, `Settings.Setting.value?_set_of_ne` — the values of settings
  when one of them has been set
* `Settings.Setting.map_get_set` — what a setting is then
-/

namespace PlatformProxy

namespace Settings

/-! ### Setting one value -/

namespace Value

theorem lookup_cons_eq (k k' : String) (v : Value) (ms : List (String × Value)) :
    ((k', v) :: ms).lookup k = if k = k' then some v else ms.lookup k := by
  by_cases hk : k = k'
  · subst hk
    simp
  · rw [List.lookup_cons, beq_false_of_ne hk, if_neg hk]

theorem lookup_changeMember (name k : String) (f : Value → Value) (ms : List (String × Value)) :
    (changeMember name f ms).lookup k =
      if k = name then some (f ((ms.lookup name).getD nothing)) else ms.lookup k := by
  induction ms with
  | nil => exact lookup_cons_eq k name (f nothing) []
  | cons m ms ih =>
    obtain ⟨k', v⟩ := m
    rw [changeMember]
    split <;> rename_i hname
    · subst hname
      simp only [lookup_cons_eq, if_true, Option.getD_some]
      split <;> rfl
    · simp only [lookup_cons_eq, ih, if_neg (Ne.symm hname)]
      by_cases hk : k = k'
      · rw [if_pos hk, if_neg (hk ▸ hname), if_pos hk]
      · rw [if_neg hk, if_neg hk]

theorem changeMember_of_fresh {name : String} {ms : List (String × Value)} (f : Value → Value)
    (h : ∀ m ∈ ms, m.1 ≠ name) : changeMember name f ms = ms ++ [(name, f nothing)] := by
  induction ms with
  | nil => rfl
  | cons m ms ih =>
    obtain ⟨hne, h⟩ := List.forall_mem_cons.mp h
    rw [changeMember, if_neg hne, ih h, List.cons_append]

theorem fst_of_mem_changeMember {name : String} {f : Value → Value} {ms : List (String × Value)}
    {m : String × Value} (h : m ∈ changeMember name f ms) : m.1 = name ∨ ∃ m' ∈ ms, m'.1 = m.1 := by
  induction ms with
  | nil =>
    obtain rfl := List.mem_singleton.mp h
    exact .inl rfl
  | cons m' ms ih =>
    obtain ⟨k, v⟩ := m'
    rw [changeMember] at h
    split at h
    · rcases List.mem_cons.mp h with rfl | h
      · exact .inr ⟨_, List.mem_cons_self, rfl⟩
      · exact .inr ⟨m, List.mem_cons_of_mem _ h, rfl⟩
    · rcases List.mem_cons.mp h with rfl | h
      · exact .inr ⟨_, List.mem_cons_self, rfl⟩
      · obtain hname | ⟨m', hm', hsame⟩ := ih h
        · exact .inl hname
        · exact .inr ⟨m', List.mem_cons_of_mem _ hm', hsame⟩

/-- A value that is no table takes the place of what is there. -/
def Replaces (w : Value) : Prop := ∀ old : Value, old.merge w = w

/-- What may be a section: a table, or a list. -/
inductive HasFields : Value → Prop
  | table (ms : List (String × Value)) : HasFields (table ms)
  | list (vs : List Value) : HasFields (list vs)

/-- The value of a field of a section. A list has its fields in order. -/
def fieldAt? (name : String) (position : Nat) : Value → Option Value
  | table ms => ms.lookup name
  | list vs => vs[position]?
  | _ => none

end Value

open Value

/-! ### Settings -/

/-- The sections. -/
inductive Part
  | server
  | steam
  | logging
  deriving DecidableEq, Repr

def Part.name : Part → String
  | server => "server"
  | steam => "steam"
  | logging => "logging"

/-- The settings. -/
inductive Setting
  | bindAddress
  | maxConnections
  | maxMessageSize
  | app
  | requiredTags
  | pollInterval
  | snapshot
  | directory
  | fileStem
  | debug
  | console
  | json
  deriving DecidableEq, Repr

namespace Setting

def part : Setting → Part
  | bindAddress | maxConnections | maxMessageSize => .server
  | app | requiredTags | pollInterval | snapshot => .steam
  | directory | fileStem | debug | console | json => .logging

def name : Setting → String
  | bindAddress => "bind_address"
  | maxConnections => "max_connections"
  | maxMessageSize => "max_message_size"
  | app => "app_id"
  | requiredTags => "required_tags"
  | pollInterval => "poll_interval_ms"
  | snapshot => "snapshot"
  | directory => "dir"
  | fileStem => "prefix"
  | debug => "debug"
  | console => "console"
  | json => "json"

/-- Where a setting comes in its section. -/
def position : Setting → Nat
  | bindAddress | app | directory => 0
  | maxConnections | requiredTags | fileStem => 1
  | maxMessageSize | pollInterval | debug => 2
  | snapshot | console => 3
  | json => 4

abbrev Content : Setting → Type
  | bindAddress | directory | fileStem => String
  | maxConnections | maxMessageSize | pollInterval => UInt64
  | app => AppId
  | requiredTags => List String
  | snapshot => Option String
  | debug | console | json => Bool

def get : (k : Setting) → Settings → k.Content
  | bindAddress, s => s.server.bindAddress
  | maxConnections, s => s.server.maxConnections
  | maxMessageSize, s => s.server.maxMessageSize
  | app, s => s.steam.app
  | requiredTags, s => s.steam.requiredTags
  | pollInterval, s => s.steam.pollInterval
  | snapshot, s => s.steam.snapshot
  | directory, s => s.logging.directory
  | fileStem, s => s.logging.fileStem
  | debug, s => s.logging.debug
  | console, s => s.logging.console
  | json, s => s.logging.json

/-- What a value is read as. -/
def read? : (k : Setting) → Value → Option k.Content
  | bindAddress, v => v.text?
  | maxConnections, v => (v.natural? UInt64.size).map UInt64.ofNat
  | maxMessageSize, v => (v.natural? UInt64.size).map UInt64.ofNat
  | app, v => (v.natural? UInt32.size).map UInt32.ofNat
  | requiredTags, v => v.texts?
  | pollInterval, v => (v.natural? UInt64.size).map UInt64.ofNat
  | snapshot, v => v.optionalText?
  | directory, v => v.text?
  | fileStem, v => v.text?
  | debug, v => v.flag?
  | console, v => v.flag?
  | json, v => v.flag?

/-- The value of a setting, if it has one. -/
def value? (k : Setting) (root : Value) : Option Value :=
  (root.members.lookup k.part.name).bind (fieldAt? k.name k.position)

/-- What a setting comes to. -/
def of? (k : Setting) (root : Value) : Option k.Content :=
  Value.field? k.read? (k.get .default) (k.value? root)

end Setting

/-! ### Reading -/

theorem fields?_table (names : List String) (ms : List (String × Value)) :
    (table ms).fields? names = some (names.map fun name => ms.lookup name) := rfl

theorem field?_some {α : Type} (read : Value → Option α) (default : α) (v : Value) :
    Value.field? read default (some v) = read v := rfl

/-- A number may be made a word at once, and not only when its section has been read. -/
theorem field?_natural64 (d : UInt64) (o : Option Value) :
    Value.field? (fun v => (v.natural? UInt64.size).map UInt64.ofNat) d o =
      (Value.field? (natural? UInt64.size) d.toNat o).map UInt64.ofNat := by
  cases o with
  | none => exact congrArg some UInt64.ofNat_toNat.symm
  | some v => rfl

theorem field?_natural32 (d : UInt32) (o : Option Value) :
    Value.field? (fun v => (v.natural? UInt32.size).map UInt32.ofNat) d o =
      (Value.field? (natural? UInt32.size) d.toNat o).map UInt32.ofNat := by
  cases o with
  | none => exact congrArg some UInt32.ofNat_toNat.symm
  | some v => rfl

/-- Whatever stands in the place of a section has fields. -/
def SectionsIn (root : Value) : Prop :=
  ∀ p : Part, ∀ v ∈ root.members.lookup p.name, v.HasFields

section Sections

variable {root : Value}

/-- A section is read field by field, and a section that is left out has no values. -/
theorem field?_server (h : SectionsIn root) :
    Value.field? Server.ofValue? .default (root.members.lookup Part.server.name) =
      (Setting.bindAddress.of? root).bind fun address =>
        (Setting.maxConnections.of? root).bind fun connections =>
          (Setting.maxMessageSize.of? root).bind fun size => some ⟨address, connections, size⟩ := by
  have hconnections : Setting.maxConnections.of? root = _ := field?_natural64 _ _
  have hsize : Setting.maxMessageSize.of? root = _ := field?_natural64 _ _
  have hsection := h .server
  simp only [hconnections, hsize, Option.bind_map]
  simp only [Setting.of?, Setting.value?, Setting.part]
  generalize root.members.lookup Part.server.name = o at hsection ⊢
  cases o with
  | none => rfl
  | some v => cases hsection v rfl <;> rfl

theorem field?_steam (h : SectionsIn root) :
    Value.field? Steam.ofValue? .default (root.members.lookup Part.steam.name) =
      (Setting.app.of? root).bind fun app =>
        (Setting.requiredTags.of? root).bind fun tags =>
          (Setting.pollInterval.of? root).bind fun interval =>
            (Setting.snapshot.of? root).bind fun snapshot =>
              some ⟨app, tags, interval, snapshot⟩ := by
  have happ : Setting.app.of? root = _ := field?_natural32 _ _
  have hinterval : Setting.pollInterval.of? root = _ := field?_natural64 _ _
  have hsection := h .steam
  simp only [happ, hinterval, Option.bind_map]
  simp only [Setting.of?, Setting.value?, Setting.part]
  generalize root.members.lookup Part.steam.name = o at hsection ⊢
  cases o with
  | none => rfl
  | some v => cases hsection v rfl <;> rfl

theorem field?_logging (h : SectionsIn root) :
    Value.field? Logging.ofValue? .default (root.members.lookup Part.logging.name) =
      (Setting.directory.of? root).bind fun directory =>
        (Setting.fileStem.of? root).bind fun fileStem =>
          (Setting.debug.of? root).bind fun debug =>
            (Setting.console.of? root).bind fun console =>
              (Setting.json.of? root).bind fun json =>
                some ⟨directory, fileStem, debug, console, json⟩ := by
  have hsection := h .logging
  simp only [Setting.of?, Setting.value?, Setting.part]
  generalize root.members.lookup Part.logging.name = o at hsection ⊢
  cases o with
  | none => rfl
  | some v => cases hsection v rfl <;> rfl

theorem ofValue?_table (ms : List (String × Value)) :
    ofValue? (table ms) =
      (Value.field? Server.ofValue? .default ((table ms).members.lookup Part.server.name)).bind
        fun server =>
          (Value.field? Steam.ofValue? .default ((table ms).members.lookup Part.steam.name)).bind
            fun steam =>
              (Value.field? Logging.ofValue? .default
                ((table ms).members.lookup Part.logging.name)).bind
                fun logging => some ⟨server, steam, logging⟩ := rfl

theorem sectionsIn_of_ofValue? {ms : List (String × Value)} {s : Settings}
    (h : ofValue? (table ms) = some s) : SectionsIn (table ms) := by
  simp only [ofValue?_table, Option.bind_eq_some_iff] at h
  obtain ⟨_, hserver, _, hsteam, _, hlogging, -⟩ := h
  intro p v hv
  cases p with
  | server =>
    rw [hv] at hserver
    cases v <;> first | exact .table _ | exact .list _ | exact absurd hserver nofun
  | steam =>
    rw [hv] at hsteam
    cases v <;> first | exact .table _ | exact .list _ | exact absurd hsteam nofun
  | logging =>
    rw [hv] at hlogging
    cases v <;> first | exact .table _ | exact .list _ | exact absurd hlogging nofun

/-- **Settings are read one by one.** -/
theorem ofValue?_table_eq_some_iff {ms : List (String × Value)} {s : Settings} :
    ofValue? (table ms) = some s ↔
      SectionsIn (table ms) ∧ ∀ k : Setting, k.of? (table ms) = some (k.get s) := by
  constructor
  · intro h
    have hsections := sectionsIn_of_ofValue? h
    simp only [ofValue?_table, field?_server hsections, field?_steam hsections,
      field?_logging hsections, Option.bind_eq_some_iff, Option.some.injEq] at h
    obtain ⟨_, ⟨_, haddress, _, hconnections, _, hsize, rfl⟩,
      _, ⟨_, happ, _, htags, _, hinterval, _, hsnapshot, rfl⟩,
      _, ⟨_, hdirectory, _, hstem, _, hdebug, _, hconsole, _, hjson, rfl⟩, rfl⟩ := h
    exact ⟨hsections, fun k => by cases k <;> assumption⟩
  · rintro ⟨hsections, h⟩
    rw [ofValue?_table, field?_server hsections, field?_steam hsections, field?_logging hsections]
    simp only [h, Option.bind_some]
    rfl

end Sections

/-- The settings with a value for each. -/
def assemble (f : (k : Setting) → k.Content) : Settings :=
  ⟨⟨f .bindAddress, f .maxConnections, f .maxMessageSize⟩,
    ⟨f .app, f .requiredTags, f .pollInterval, f .snapshot⟩,
    ⟨f .directory, f .fileStem, f .debug, f .console, f .json⟩⟩

theorem get_assemble (f : (k : Setting) → k.Content) (k : Setting) : k.get (assemble f) = f k := by
  cases k <;> rfl

/-- Every setting can be read. -/
structure Readable (root : Value) : Prop where
  sections : SectionsIn root
  of? : ∀ k : Setting, ∃ x, k.of? root = some x

theorem readable_of_ofValue? {root : Value} {s : Settings} (h : ofValue? root = some s) :
    Readable root := by
  cases root with
  | table ms =>
    obtain ⟨hsections, hof⟩ := ofValue?_table_eq_some_iff.mp h
    exact ⟨hsections, fun k => ⟨_, hof k⟩⟩
  | list vs => exact ⟨nofun, fun k => ⟨_, rfl⟩⟩
  | nothing | flag _ | integer _ | real _ | text _ => exact absurd h nofun

theorem Readable.exists_ofValue? {ms : List (String × Value)} (h : Readable (table ms)) :
    ∃ s, ofValue? (table ms) = some s := by
  refine ⟨assemble fun k => (h.of? k).choose,
    ofValue?_table_eq_some_iff.mpr ⟨h.sections, fun k => ?_⟩⟩
  rw [get_assemble]
  exact (h.of? k).choose_spec

/-! ### Setting a setting -/

/-- The fields of a section are given by their order. -/
def Part.IsListed (root : Value) (p : Part) : Prop :=
  ∃ vs, root.members.lookup p.name = some (list vs)

instance (root : Value) (p : Part) : Decidable (p.IsListed root) :=
  decidable_of_iff ((root.members.lookup p.name).any fun v => v matches list _) <| by
    rw [Part.IsListed]
    cases root.members.lookup p.name with
    | none => simp
    | some v => cases v <;> simp

theorem Part.eq_of_name_eq {p q : Part} (h : p.name = q.name) : p = q := by
  cases p <;> cases q <;> first | rfl | exact absurd h (by decide)

namespace Setting

theorem eq_of_name_eq {j k : Setting} (h : j.name = k.name) : j = k := by
  cases j <;> cases k <;> first | rfl | exact absurd h (by decide)

/-- Where a setting is set. -/
def path (k : Setting) : Path := ⟨k.part.name, [.member k.name]⟩

/-- The value of a setting in a section that is a table. -/
def member? (k : Setting) (root : Value) : Option Value :=
  ((root.members.lookup k.part.name).getD nothing).members.lookup k.name

variable {root w : Value} {j k : Setting}

/-- What setting a setting does to the sections. -/
theorem lookup_set (hw : w.Replaces) (k : Setting) (p : Part) :
    (k.path.set w root).members.lookup p.name = if p = k.part then
        some (table (changeMember k.name (fun _ => w)
          ((root.members.lookup k.part.name).getD nothing).members))
      else root.members.lookup p.name := by
  have hset : k.path.set w root = table (changeMember k.part.name
      (fun v => table (changeMember k.name (fun old => old.merge w) v.members)) root.members) := rfl
  have hmerge : (fun old : Value => old.merge w) = fun _ => w := funext hw
  rw [hset, hmerge, members, lookup_changeMember]
  by_cases hp : p = k.part
  · rw [if_pos hp, if_pos (congrArg Part.name hp)]
  · rw [if_neg hp, if_neg fun h => hp (Part.eq_of_name_eq h)]

theorem sectionsIn_set (h : SectionsIn root) (hw : w.Replaces) (k : Setting) :
    SectionsIn (k.path.set w root) := by
  intro p v hv
  rw [lookup_set hw] at hv
  split at hv
  · obtain rfl := Option.some.inj hv
    exact .table _
  · exact h p v hv

theorem value?_set_self (hw : w.Replaces) (k : Setting) :
    k.value? (k.path.set w root) = some w := by
  rw [value?, lookup_set hw, if_pos rfl, Option.bind_some, fieldAt?, lookup_changeMember,
    if_pos rfl]

theorem value?_set_of_ne (hw : w.Replaces) (h : j ≠ k) :
    j.value? (k.path.set w root) = if j.part = k.part then j.member? root else j.value? root := by
  rw [value?, lookup_set hw]
  split
  · rename_i hpart
    rw [Option.bind_some, fieldAt?, lookup_changeMember,
      if_neg fun hname => h (eq_of_name_eq hname), member?, hpart]
  · rfl

theorem member?_set_self (hw : w.Replaces) (k : Setting) :
    k.member? (k.path.set w root) = some w := by
  rw [member?, lookup_set hw, if_pos rfl, Option.getD_some, members, lookup_changeMember,
    if_pos rfl]

theorem member?_set_of_ne (hw : w.Replaces) (h : j ≠ k) :
    j.member? (k.path.set w root) = j.member? root := by
  rw [member?, lookup_set hw]
  split
  · rename_i hpart
    rw [Option.getD_some, members, lookup_changeMember,
      if_neg fun hname => h (eq_of_name_eq hname), member?, hpart]
  · rfl

theorem member?_of_isListed (h : k.part.IsListed root) : k.member? root = none := by
  obtain ⟨vs, hvs⟩ := h
  rw [member?, hvs]
  rfl

theorem member?_of_not_isListed (hsections : SectionsIn root) (h : ¬ k.part.IsListed root) :
    k.member? root = k.value? root := by
  rw [member?, value?]
  cases hv : root.members.lookup k.part.name with
  | none => rfl
  | some v =>
    cases hsections k.part v hv with
    | table ms => rfl
    | list vs => exact absurd ⟨vs, hv⟩ h

theorem of?_set_self (hw : w.Replaces) (k : Setting) : k.of? (k.path.set w root) = k.read? w := by
  rw [of?, value?_set_self hw]
  rfl

/-- What a setting comes to in a section that has been made a table. -/
theorem exists_of?_member? (h : Readable root) (k : Setting) :
    ∃ x, Value.field? k.read? (k.get .default) (k.member? root) = some x := by
  by_cases hlisted : k.part.IsListed root
  · rw [member?_of_isListed hlisted]
    exact ⟨_, rfl⟩
  · rw [member?_of_not_isListed h.sections hlisted]
    exact h.of? k

theorem readable_set (h : Readable root) (hw : w.Replaces) {x : k.Content}
    (hread : k.read? w = some x) : Readable (k.path.set w root) := by
  refine ⟨sectionsIn_set h.sections hw k, fun j => ?_⟩
  by_cases hj : j = k
  · subst hj
    exact ⟨x, (of?_set_self hw j).trans hread⟩
  · rw [of?, value?_set_of_ne hw hj]
    split
    · exact exists_of?_member? h j
    · exact h.of? j

/-- **What a setting is set to is what it is read as.** -/
theorem map_get_set {s : Settings} (h : ofValue? root = some s) (hw : w.Replaces) (k : Setting) :
    (ofValue? (k.path.set w root)).map k.get = k.read? w := by
  cases hread : k.read? w with
  | none =>
    rw [Option.map_eq_none_iff, Option.eq_none_iff_forall_ne_some]
    intro s' hs'
    have hof := (ofValue?_table_eq_some_iff.mp hs').2 k
    exact absurd ((of?_set_self hw k).symm.trans hof) (by rw [hread]; nofun)
  | some x =>
    obtain ⟨s', hs'⟩ := (readable_set (readable_of_ofValue? h) hw hread).exists_ofValue?
    have hof := (ofValue?_table_eq_some_iff.mp hs').2 k
    have hget := ((of?_set_self hw k).symm.trans hof).symm.trans hread
    exact (congrArg (Option.map k.get) hs').trans hget

end Setting

end Settings

end PlatformProxy
