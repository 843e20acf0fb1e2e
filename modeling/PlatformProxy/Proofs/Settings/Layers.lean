import Mathlib.Data.List.Nodup
import PlatformProxy.Proofs.Settings.Overriding

/-!
# Overrides

A variable for a setting is put over the file, and leaves every other setting alone. This holds of
any number of variables in any order, as long as no two are for the same setting: each setting is
what its variable alone makes it, or what the file and the defaults make it.

There is one exception. A file may give a section as a list, whose items are the fields in order,
and such a section is made a table by a variable for one of its fields. What the list says of the
others is lost, and they fall back to their defaults.

A variable that is not for the proxy changes nothing. As names are compared in lower case, one is
for the proxy that begins with the proxy's name in any letter case.

None of this depends on the order in which the members of the file and the variables are set. What
the settings are does not either, unless two members of the file begin with the same name.

## Main definitions

* `Settings.setAll` — settings that are set one after another
* `Settings.Setting.variableName`, `Settings.Variable.setting?` — the variable for a setting, and
  the setting that a variable is for
* `Settings.Overrides` — variables for different settings, and others
* `Settings.Layer.Apart` — members that begin with different names
* `Settings.Place.Lists` — the file gives a section as a list

## Main results

* `Settings.value?_setAll_of_mem`, `Settings.value?_setAll_of_not_mem` — the values after that
* `Settings.Variable.setting?_variableName` — what variables for settings are called
* `Settings.Overrides.exists_changes` — overrides set settings one after another
* `Settings.Store.loadIn_eq_load` — the order of members, where it does not matter
* `Settings.Store.overrides_keep_apart` — what the settings are
-/

namespace PlatformProxy

namespace Settings

open Value

/-! ### Setting many settings -/

/-- Set settings one after another. -/
def setAll (root : Value) (changes : List (Setting × Value)) : Value :=
  changes.foldl (fun root m => m.1.path.set m.2 root) root

section SetAll

variable {root : Value} {changes : List (Setting × Value)} {k : Setting} {w : Value}

theorem readable_setAll (h : Readable root)
    (hchanges : ∀ m ∈ changes, m.2.Replaces ∧ ∃ x, m.1.read? m.2 = some x) :
    Readable (setAll root changes) := by
  induction changes generalizing root with
  | nil => exact h
  | cons m rest ih =>
    obtain ⟨⟨hreplaces, x, hread⟩, hrest⟩ := List.forall_mem_cons.mp hchanges
    exact ih (Setting.readable_set h hreplaces hread) hrest

/-- A setting that is not set keeps its value, but in a section where another one is set it has
none if it is not in a table. -/
theorem value?_setAll_of_not_mem (hchanges : ∀ m ∈ changes, m.2.Replaces)
    (hk : k ∉ changes.map Prod.fst) :
    k.value? (setAll root changes) =
      if ∃ m ∈ changes, m.1.part = k.part then k.member? root else k.value? root := by
  induction changes generalizing root with
  | nil => rfl
  | cons m rest ih =>
    obtain ⟨hreplaces, hrest⟩ := List.forall_mem_cons.mp hchanges
    rw [List.map_cons, List.mem_cons, not_or] at hk
    have hset : k.value? (setAll root (m :: rest)) =
        k.value? (setAll (m.1.path.set m.2 root) rest) := rfl
    rw [hset, ih hrest hk.2, Setting.member?_set_of_ne hreplaces hk.1,
      Setting.value?_set_of_ne hreplaces hk.1]
    by_cases hpart : m.1.part = k.part
    · rw [if_pos hpart.symm, ite_self, if_pos ⟨m, List.mem_cons_self, hpart⟩]
    · rw [if_neg (Ne.symm hpart)]
      exact if_congr (by simp [hpart]) rfl rfl

theorem value?_setAll_of_mem (hchanges : ∀ m ∈ changes, m.2.Replaces)
    (hnodup : (changes.map Prod.fst).Nodup) (h : (k, w) ∈ changes) :
    k.value? (setAll root changes) = some w := by
  induction changes generalizing root with
  | nil => exact absurd h List.not_mem_nil
  | cons m rest ih =>
    obtain ⟨hreplaces, hrest⟩ := List.forall_mem_cons.mp hchanges
    obtain ⟨hfresh, hnodup⟩ := List.nodup_cons.mp hnodup
    rcases List.mem_cons.mp h with rfl | h
    · have hset : k.value? (setAll root ((k, w) :: rest)) =
          k.value? (setAll (k.path.set w root) rest) := rfl
      rw [hset, value?_setAll_of_not_mem hrest hfresh, Setting.member?_set_self hreplaces,
        Setting.value?_set_self hreplaces, ite_self]
    · exact ih hrest hnodup h

/-- A section where a setting is set is a table, and any other is what it was. -/
theorem hasFields_setAll_iff (hchanges : ∀ m ∈ changes, m.2.Replaces) {p : Part} :
    (∀ v ∈ (setAll root changes).members.lookup p.name, v.HasFields) ↔
      (∃ m ∈ changes, m.1.part = p) ∨ ∀ v ∈ root.members.lookup p.name, v.HasFields := by
  induction changes generalizing root with
  | nil => simp [setAll]
  | cons m rest ih =>
    obtain ⟨hreplaces, hrest⟩ := List.forall_mem_cons.mp hchanges
    refine (ih hrest).trans ?_
    rw [Setting.lookup_set hreplaces]
    by_cases hpart : p = m.1.part
    · rw [if_pos hpart]
      exact iff_of_true (.inr fun v hv => Option.some.inj hv ▸ .table _)
        (.inl ⟨m, List.mem_cons_self, hpart.symm⟩)
    · rw [if_neg hpart]
      simp [Ne.symm hpart]

/-- Only the sections count, and not the order in which different settings are set. -/
theorem ofValue?_setAll_congr {root' : Value} {changes' : List (Setting × Value)}
    (hroot : ∀ p : Part, root.members.lookup p.name = root'.members.lookup p.name)
    (hperm : changes.Perm changes') (hchanges : ∀ m ∈ changes, m.2.Replaces)
    (hnodup : (changes.map Prod.fst).Nodup) {ms ms' : List (String × Value)}
    (hms : setAll root changes = table ms) (hms' : setAll root' changes' = table ms') :
    ofValue? (table ms) = ofValue? (table ms') := by
  have hchanges' : ∀ m ∈ changes', m.2.Replaces := fun m hm => hchanges m (hperm.symm.subset hm)
  have hnodup' : (changes'.map Prod.fst).Nodup := (hperm.map _).nodup_iff.mp hnodup
  have htouched : ∀ p, (∃ m ∈ changes, m.1.part = p) ↔ ∃ m ∈ changes', m.1.part = p :=
    fun p => ⟨fun ⟨m, hm, hp⟩ => ⟨m, hperm.subset hm, hp⟩,
      fun ⟨m, hm, hp⟩ => ⟨m, hperm.symm.subset hm, hp⟩⟩
  have hsections : SectionsIn (setAll root changes) ↔ SectionsIn (setAll root' changes') := by
    refine forall_congr' fun p => ?_
    rw [hasFields_setAll_iff hchanges, hasFields_setAll_iff hchanges', htouched, hroot]
  have hvalue : ∀ k : Setting,
      k.value? (setAll root changes) = k.value? (setAll root' changes') := by
    intro k
    by_cases hk : k ∈ changes.map Prod.fst
    · obtain ⟨⟨j, w⟩, hw, rfl⟩ := List.mem_map.mp hk
      rw [value?_setAll_of_mem hchanges hnodup hw,
        value?_setAll_of_mem hchanges' hnodup' (hperm.subset hw)]
    · have hk' : k ∉ changes'.map Prod.fst := fun h => hk ((hperm.map _).symm.subset h)
      rw [value?_setAll_of_not_mem hchanges hk, value?_setAll_of_not_mem hchanges' hk']
      simp only [htouched, Setting.member?, Setting.value?, hroot]
  refine Option.ext fun s => ?_
  rw [ofValue?_table_eq_some_iff, ofValue?_table_eq_some_iff, ← hms, ← hms', hsections]
  simp only [Setting.of?, hvalue]

end SetAll

/-! ### Variables for settings -/

namespace Setting

def all : List Setting :=
  [bindAddress, maxConnections, maxMessageSize, app, requiredTags, pollInterval, snapshot,
    directory, fileStem, debug, console, json]

/-- The text of the path at which a setting is set. -/
def pathText (k : Setting) : String := k.part.name ++ "." ++ k.name

theorem ofText_pathText (k : Setting) : Path.ofText k.pathText = k.path := by
  cases k <;> decide +kernel

/-- The name of the variable for a setting. -/
def variableName (k : Setting) : String :=
  String.ofList ("STEAM_PROXY_".toList ++ k.part.name.toList.map Char.toUpper ++ "__".toList ++
    k.name.toList.map Char.toUpper)

theorem path?_variableName (k : Setting) (t : String) :
    (⟨k.variableName, t⟩ : Variable).path? = some k.pathText := by
  show (⟨k.variableName, ""⟩ : Variable).path? = some k.pathText
  cases k <;> decide +kernel

/-- The setting that is set at a path. -/
def ofPath? (path : String) : Option Setting := all.find? fun k => k.pathText = path

theorem ofPath?_pathText (k : Setting) : ofPath? k.pathText = some k := by
  cases k <;> decide +kernel

theorem pathText_of_ofPath? {path : String} {k : Setting} (h : ofPath? path = some k) :
    k.pathText = path := by
  simpa using List.find?_some h

end Setting

namespace Variable

/-- The setting that a variable is for. -/
def setting? (v : Variable) : Option Setting := v.path?.bind Setting.ofPath?

/-- What a variable for a setting sets it to. -/
def change? (v : Variable) : Option (Setting × Value) :=
  v.setting?.map fun k => (k, valueAt k.pathText v.value)

variable {v : Variable} {k : Setting}

theorem setting?_eq_some_iff : v.setting? = some k ↔ v.path? = some k.pathText := by
  rw [setting?, Option.bind_eq_some_iff]
  constructor
  · rintro ⟨path, hpath, hk⟩
    rw [hpath, Setting.pathText_of_ofPath? hk]
  · exact fun h => ⟨_, h, k.ofPath?_pathText⟩

theorem change?_of_setting? (h : v.setting? = some k) :
    v.change? = some (k, valueAt k.pathText v.value) := by
  rw [change?, h]
  rfl

/-- The variable of a setting's name is for this setting. -/
theorem setting?_variableName (k : Setting) (t : String) :
    (⟨k.variableName, t⟩ : Variable).setting? = some k :=
  setting?_eq_some_iff.mpr (k.path?_variableName t)

example : Setting.maxMessageSize.variableName = "STEAM_PROXY_SERVER__MAX_MESSAGE_SIZE" := by
  decide +kernel

theorem change?_of_path?_eq_none (h : v.path? = none) : v.change? = none := by
  rw [change?, setting?, h]
  rfl

theorem setting?_of_change? {m : Setting × Value} (h : v.change? = some m) :
    v.setting? = some m.1 ∧ m.2 = valueAt m.1.pathText v.value := by
  obtain ⟨k, hk, rfl⟩ := Option.map_eq_some_iff.mp h
  dsimp only
  exact ⟨hk, rfl⟩

theorem map_fst_changes (env : List Variable) :
    (env.filterMap change?).map Prod.fst = env.filterMap setting? := by
  rw [List.map_filterMap]
  congr 1
  funext v
  rw [change?, Option.map_map]
  exact Option.map_id'

end Variable

namespace Layer

theorem ofEnvironment_concat_of_path?_eq_none (env : List Variable) {v : Variable}
    (h : v.path? = none) : ofEnvironment (env ++ [v]) = ofEnvironment env := by
  rw [ofEnvironment, List.foldl_append, List.foldl_cons, h]
  rfl

/-- What is not for the proxy sets nothing. -/
theorem ofEnvironment_filter (env : List Variable) :
    ofEnvironment (env.filter fun v => v.path?.isSome) = ofEnvironment env := by
  rw [ofEnvironment, List.foldl_filter, ofEnvironment]
  congr 1
  funext layer v
  cases v.path? <;> rfl

/-- The setting that a member sets, with its value. -/
def change? (m : String × Value) : Option (Setting × Value) :=
  (Setting.ofPath? m.1).map fun k => (k, m.2)

/-- Members at the paths of settings set these settings. -/
theorem apply_eq_setAll {layer : Layer} (h : ∀ m ∈ layer, Setting.ofPath? m.1 ≠ none)
    (root : Value) : apply root layer = setAll root (layer.filterMap change?) := by
  induction layer generalizing root with
  | nil => rfl
  | cons m rest ih =>
    obtain ⟨hm, hrest⟩ := List.forall_mem_cons.mp h
    obtain ⟨k, hk⟩ := Option.ne_none_iff_exists'.mp hm
    have hchange : change? m = some (k, m.2) := by
      rw [change?, hk]
      rfl
    have hset : apply root (m :: rest) = apply (k.path.set m.2 root) rest := by
      show apply ((Path.ofText m.1).set m.2 root) rest = _
      rw [← Setting.pathText_of_ofPath? hk, k.ofText_pathText]
    rw [List.filterMap_cons_some hchange, hset]
    exact ih hrest _

end Layer

/-- The variables are for settings, no two for the same one, or not for the proxy at all. -/
structure Overrides (env : List Variable) : Prop where
  named : ∀ v ∈ env, v.path? = none ∨ v.setting? ≠ none
  distinct : (env.filterMap Variable.setting?).Nodup

namespace Overrides

variable {env : List Variable} {v : Variable}

theorem of_sublist {env' : List Variable} (h : Overrides env) (hsub : env'.Sublist env) :
    Overrides env' :=
  ⟨fun v hv => h.named v (hsub.subset hv), h.distinct.sublist (hsub.filterMap _)⟩

theorem filterMap_ofEnvironment (h : Overrides env) :
    (Layer.ofEnvironment env).filterMap Layer.change? = env.filterMap Variable.change? := by
  induction env using List.reverseRecOn with
  | nil => rfl
  | append_singleton env v ih =>
    have hbefore := ih (h.of_sublist (List.sublist_append_left _ _))
    rw [List.filterMap_append, ← hbefore]
    obtain hnone | hsome := h.named v (List.mem_append_right _ (List.mem_singleton_self v))
    · rw [Layer.ofEnvironment_concat_of_path?_eq_none env hnone,
        List.filterMap_cons_none (Variable.change?_of_path?_eq_none hnone), List.filterMap_nil,
        List.append_nil]
    · obtain ⟨k, hk⟩ := Option.ne_none_iff_exists'.mp hsome
      have hpath := Variable.setting?_eq_some_iff.mp hk
      have hfresh : ∀ w ∈ env, w.path? ≠ some k.pathText := by
        intro w hw hsame
        have hnodup := h.distinct
        rw [List.filterMap_append, List.filterMap_cons_some hk, List.filterMap_nil] at hnodup
        exact List.disjoint_of_nodup_append hnodup
          (List.mem_filterMap.mpr ⟨w, hw, Variable.setting?_eq_some_iff.mpr hsame⟩)
          (List.mem_singleton_self k)
      have hchange : Layer.change? (k.pathText, Variable.valueAt k.pathText v.value) =
          some (k, Variable.valueAt k.pathText v.value) := by
        rw [Layer.change?, k.ofPath?_pathText]
        rfl
      rw [Layer.ofEnvironment_concat_of_fresh hpath hfresh, List.filterMap_append,
        List.filterMap_cons_some (Variable.change?_of_setting? hk),
        List.filterMap_cons_some hchange]
      rfl

/-- **Overrides set settings one after another**, in whatever order they are set. -/
theorem exists_changes (h : Overrides env) {layer : Layer}
    (hlayer : layer.Perm (Layer.ofEnvironment env)) :
    ∃ changes, changes.Perm (env.filterMap Variable.change?) ∧
      ∀ root, Layer.apply root layer = setAll root changes := by
  have hpaths : ∀ m ∈ layer, Setting.ofPath? m.1 ≠ none := by
    intro m hm
    obtain ⟨v, hv, hpath⟩ := Layer.exists_variable (hlayer.subset hm)
    have hnamed := (h.named v hv).resolve_left (by rw [hpath]; exact Option.some_ne_none _)
    rwa [Variable.setting?, hpath] at hnamed
  exact ⟨layer.filterMap Layer.change?, h.filterMap_ofEnvironment ▸ hlayer.filterMap _,
    Layer.apply_eq_setAll hpaths⟩

end Overrides

/-- Some variable is for a setting of this section. -/
def Touches (env : List Variable) (p : Part) : Prop :=
  ∃ v ∈ env, ∃ k, v.setting? = some k ∧ k.part = p

section Changes

variable {env : List Variable} {changes : List (Setting × Value)} {root : Value} {k : Setting}

theorem exists_change_iff_touches (hchanges : changes.Perm (env.filterMap Variable.change?))
    {p : Part} : (∃ m ∈ changes, m.1.part = p) ↔ Touches env p := by
  constructor
  · rintro ⟨m, hm, hp⟩
    obtain ⟨v, hv, hvm⟩ := List.mem_filterMap.mp (hchanges.subset hm)
    exact ⟨v, hv, m.1, (Variable.setting?_of_change? hvm).1, hp⟩
  · rintro ⟨v, hv, k, hk, hp⟩
    exact ⟨_, hchanges.symm.subset
      (List.mem_filterMap.mpr ⟨v, hv, Variable.change?_of_setting? hk⟩), hp⟩

theorem replaces_of_mem_changes (hchanges : changes.Perm (env.filterMap Variable.change?)) :
    ∀ m ∈ changes, m.2.Replaces := by
  intro m hm
  obtain ⟨v, -, hvm⟩ := List.mem_filterMap.mp (hchanges.subset hm)
  rw [(Variable.setting?_of_change? hvm).2]
  exact Variable.replaces_valueAt _ _

namespace Overrides

theorem nodup_changes (h : Overrides env)
    (hchanges : changes.Perm (env.filterMap Variable.change?)) :
    (changes.map Prod.fst).Nodup := by
  rw [(hchanges.map Prod.fst).nodup_iff, Variable.map_fst_changes]
  exact h.distinct

/-- A setting that a variable is for is read from this variable. -/
theorem of?_of_mem (h : Overrides env)
    (hchanges : changes.Perm (env.filterMap Variable.change?)) {v : Variable} (hv : v ∈ env)
    (hk : v.setting? = some k) :
    k.of? (setAll root changes) = k.read? (Variable.valueAt k.pathText v.value) := by
  have hmem := hchanges.symm.subset
    (List.mem_filterMap.mpr ⟨v, hv, Variable.change?_of_setting? hk⟩)
  rw [Setting.of?,
    value?_setAll_of_mem (replaces_of_mem_changes hchanges) (h.nodup_changes hchanges) hmem]
  rfl

end Overrides

namespace Setting

theorem value?_of_forall_ne (hchanges : changes.Perm (env.filterMap Variable.change?))
    (hk : ∀ v ∈ env, v.setting? ≠ some k) :
    k.value? (setAll root changes) =
      if ∃ m ∈ changes, m.1.part = k.part then k.member? root else k.value? root := by
  refine value?_setAll_of_not_mem (replaces_of_mem_changes hchanges) fun hmem => ?_
  have hmem' := (hchanges.map Prod.fst).subset hmem
  rw [Variable.map_fst_changes, List.mem_filterMap] at hmem'
  obtain ⟨v, hv, hvk⟩ := hmem'
  exact hk v hv hvk

/-- Any other setting keeps the value it has below. -/
theorem of?_of_kept (hchanges : changes.Perm (env.filterMap Variable.change?))
    (hsections : SectionsIn root) (hk : ∀ v ∈ env, v.setting? ≠ some k)
    (hkept : ¬ (k.part.IsListed root ∧ Touches env k.part)) :
    k.of? (setAll root changes) = k.of? root := by
  rw [Setting.of?, Setting.of?, value?_of_forall_ne hchanges hk]
  split
  · rename_i hchange
    have htouches := (exists_change_iff_touches hchanges).mp hchange
    rw [Setting.member?_of_not_isListed hsections fun hlisted => hkept ⟨hlisted, htouches⟩]
  · rfl

/-- But in a section that was a list, and is a table now, it has none. -/
theorem of?_of_lost (hchanges : changes.Perm (env.filterMap Variable.change?))
    (hk : ∀ v ∈ env, v.setting? ≠ some k) (hlisted : k.part.IsListed root)
    (htouches : Touches env k.part) :
    k.of? (setAll root changes) = some (k.get .default) := by
  rw [Setting.of?, value?_of_forall_ne hchanges hk,
    if_pos ((exists_change_iff_touches hchanges).mpr htouches), Setting.member?_of_isListed hlisted]
  rfl

end Setting

theorem readable_of_changes (hchanges : changes.Perm (env.filterMap Variable.change?))
    (hroot : Readable root) (hread : ∀ v ∈ env, ∀ k, v.setting? = some k →
      ∃ x, k.read? (Variable.valueAt k.pathText v.value) = some x) :
    Readable (setAll root changes) := by
  refine readable_setAll hroot fun m hm => ⟨replaces_of_mem_changes hchanges m hm, ?_⟩
  obtain ⟨v, hv, hvm⟩ := List.mem_filterMap.mp (hchanges.subset hm)
  obtain ⟨hk, hvalue⟩ := Variable.setting?_of_change? hvm
  rw [hvalue]
  exact hread v hv m.1 hk

end Changes

/-! ### Members in any order -/

/-- No two members begin with the same name. -/
def Layer.Apart (layer : Layer) : Prop := (layer.map fun m => (Path.ofText m.1).root).Nodup

namespace Layer

variable {root : Value} {layer : Layer} {name : String}

theorem lookup_set (p : Path) (v root : Value) (name : String) :
    (p.set v root).members.lookup name = if name = p.root then
        some (Path.change (fun old => old.merge v) p.steps
          ((root.members.lookup p.root).getD nothing))
      else root.members.lookup name :=
  lookup_changeMember _ _ _ _

theorem lookup_apply_of_forall_ne (h : ∀ m ∈ layer, (Path.ofText m.1).root ≠ name) :
    (apply root layer).members.lookup name = root.members.lookup name := by
  induction layer generalizing root with
  | nil => rfl
  | cons m rest ih =>
    obtain ⟨hm, hrest⟩ := List.forall_mem_cons.mp h
    refine (ih hrest).trans ?_
    rw [lookup_set, if_neg (Ne.symm hm)]

theorem lookup_apply_of_mem (h : layer.Apart) {m : String × Value} (hm : m ∈ layer) :
    (apply root layer).members.lookup (Path.ofText m.1).root =
      some (Path.change (fun old => old.merge m.2) (Path.ofText m.1).steps
        ((root.members.lookup (Path.ofText m.1).root).getD nothing)) := by
  induction layer generalizing root with
  | nil => exact absurd hm List.not_mem_nil
  | cons m' rest ih =>
    obtain ⟨hfresh, hrest⟩ := List.nodup_cons.mp h
    have hne : ∀ m ∈ rest, (Path.ofText m.1).root ≠ (Path.ofText m'.1).root :=
      fun m hm hsame => hfresh (List.mem_map.mpr ⟨m, hm, hsame⟩)
    rcases List.mem_cons.mp hm with rfl | hm
    · refine (lookup_apply_of_forall_ne hne).trans ?_
      rw [lookup_set, if_pos rfl]
    · refine (ih hrest hm).trans ?_
      rw [lookup_set, if_neg (hne m hm)]

/-- **The order of members that begin with different names does not matter.** -/
theorem lookup_apply_perm {layer' : Layer} (h : layer'.Perm layer) (hapart : layer.Apart)
    (root : Value) (name : String) :
    (apply root layer').members.lookup name = (apply root layer).members.lookup name := by
  have hapart' : layer'.Apart := (h.map _).nodup_iff.mpr hapart
  by_cases hname : ∃ m ∈ layer, (Path.ofText m.1).root = name
  · obtain ⟨m, hm, rfl⟩ := hname
    rw [lookup_apply_of_mem hapart hm, lookup_apply_of_mem hapart' (h.symm.subset hm)]
  · have hne : ∀ m ∈ layer, (Path.ofText m.1).root ≠ name :=
      fun m hm hsame => hname ⟨m, hm, hsame⟩
    rw [lookup_apply_of_forall_ne hne,
      lookup_apply_of_forall_ne fun m hm => hne m (h.subset hm)]

end Layer

/-! ### Loading with overrides -/

/-- What a file says before anything is set over it. -/
def Place.root (order : Layer → Layer) (place : Place) : Value :=
  Layer.apply (table []) (order ((Store.fileLayer? place).getD []))

/-- The file gives the fields of a section by their order. -/
def Place.Lists (order : Layer → Layer) (place : Place) (p : Part) : Prop :=
  p.IsListed (place.root order)

theorem exists_apply_eq_table (ms : List (String × Value)) (layer : Layer) :
    ∃ ms', Layer.apply (table ms) layer = table ms' := by
  induction layer generalizing ms with
  | nil => exact ⟨ms, rfl⟩
  | cons m rest ih => exact ih _

theorem Place.exists_apply_root (order : Layer → Layer) (place : Place) (layer : Layer) :
    ∃ ms, Layer.apply (place.root order) layer = table ms := by
  obtain ⟨ms, hms⟩ := exists_apply_eq_table [] (order ((Store.fileLayer? place).getD []))
  rw [Place.root, hms]
  exact exists_apply_eq_table ms layer

namespace Store

variable {s : Store} {order : Layer → Layer} {place : Place} {before after : Settings}
  {env : List Variable}

theorem order_nil (horder : ∀ layer, (order layer).Perm layer) : order [] = [] :=
  List.perm_nil.mp (horder [])

/-- **With overrides, the order of members does not matter**, if no two members of the file begin
with the same name. -/
theorem loadIn_eq_load (s : Store) (horder : ∀ layer, (order layer).Perm layer)
    (hapart : ∀ layer ∈ fileLayer? place, layer.Apart) (henv : Overrides env) :
    s.loadIn order place env = s.load place env := by
  rw [load, loadIn, loadIn]
  cases hlayer : fileLayer? place with
  | none => rfl
  | some layer =>
    have hroot := Layer.lookup_apply_perm (horder layer) (hapart layer hlayer) (table [])
    obtain ⟨changes, hchanges, happly⟩ := henv.exists_changes (horder _)
    obtain ⟨changes', hchanges', happly'⟩ := henv.exists_changes (.refl _)
    have hperm := hchanges.trans hchanges'.symm
    obtain ⟨ms, hms⟩ := exists_apply_eq_table [] (order layer)
    obtain ⟨ms', hms'⟩ := exists_apply_eq_table [] layer
    obtain ⟨both, hboth⟩ := exists_apply_eq_table ms (order (Layer.ofEnvironment env))
    obtain ⟨both', hboth'⟩ := exists_apply_eq_table ms' (Layer.ofEnvironment env)
    rw [← hms, happly] at hboth
    rw [← hms', happly'] at hboth'
    have hsame : ofLayers? [order layer, order (Layer.ofEnvironment env)] =
        ofLayers? [layer, Layer.ofEnvironment env] := by
      show ofValue? (Layer.apply (Layer.apply (table []) (order layer)) _) =
        ofValue? (Layer.apply (Layer.apply (table []) layer) _)
      rw [happly, happly', hboth, hboth']
      exact ofValue?_setAll_congr (fun p => hroot p.name) hperm (replaces_of_mem_changes hchanges)
        (henv.nodup_changes hchanges) hboth hboth'
    dsimp only [id]
    rw [hsame]

theorem loadIn_eq_of_loadIn (hload : s.loadIn order place [] = .ok before) (env : List Variable) :
    s.loadIn order place env =
      (ofValue? (Layer.apply (place.root order) (order (Layer.ofEnvironment env)))).elim
        (.error (.malformed s.path)) .ok := by
  cases hlayer : fileLayer? place with
  | none =>
    simp [loadIn, hlayer] at hload
  | some layer =>
    have hroot : ofValue? (Layer.apply (place.root order) (order (Layer.ofEnvironment env))) =
        ofLayers? [order layer, order (Layer.ofEnvironment env)] := by
      rw [Place.root, hlayer]
      rfl
    rw [loadIn, hlayer, hroot]
    dsimp only
    cases ofLayers? [order layer, order (Layer.ofEnvironment env)] <;> rfl

theorem loadIn_eq_ok_iff (hload : s.loadIn order place [] = .ok before) :
    s.loadIn order place env = .ok after ↔
      SectionsIn (Layer.apply (place.root order) (order (Layer.ofEnvironment env))) ∧
        ∀ k : Setting,
          k.of? (Layer.apply (place.root order) (order (Layer.ofEnvironment env))) =
            some (k.get after) := by
  obtain ⟨ms, hms⟩ := place.exists_apply_root order (order (Layer.ofEnvironment env))
  rw [loadIn_eq_of_loadIn hload, hms, ← ofValue?_table_eq_some_iff]
  cases ofValue? (table ms) <;> simp

theorem exists_loadIn (hload : s.loadIn order place [] = .ok before)
    (h : Readable (Layer.apply (place.root order) (order (Layer.ofEnvironment env)))) :
    ∃ after, s.loadIn order place env = .ok after := by
  obtain ⟨ms, hms⟩ := place.exists_apply_root order (order (Layer.ofEnvironment env))
  rw [loadIn_eq_of_loadIn hload, hms]
  rw [hms] at h
  obtain ⟨after, hafter⟩ := h.exists_ofValue?
  exact ⟨after, by rw [hafter, Option.elim_some]⟩

/-- What a setting comes to when its override is all there is. -/
theorem read?_of_loadIn_single (horder : ∀ layer, (order layer).Perm layer)
    (hload : s.loadIn order place [] = .ok before) {v : Variable} {k : Setting}
    (hk : v.setting? = some k) {alone : Settings}
    (halone : s.loadIn order place [v] = .ok alone) :
    k.read? (Variable.valueAt k.pathText v.value) = some (k.get alone) := by
  have hsingle : Overrides [v] :=
    ⟨List.forall_mem_singleton.mpr (.inr (hk ▸ Option.some_ne_none k)), by simp [hk]⟩
  obtain ⟨changes, hchanges, happly⟩ := hsingle.exists_changes (horder _)
  have hof := ((loadIn_eq_ok_iff hload).mp halone).2 k
  rw [happly] at hof
  exact (hsingle.of?_of_mem hchanges (List.mem_singleton_self v) hk).symm.trans hof

/-- **Overrides and the file do not disturb each other**, but for sections that the file gives as
lists. The members of the file and the variables are set in any order. -/
theorem overrides_keep_apart (s : Store) (horder : ∀ layer, (order layer).Perm layer)
    (hload : s.loadIn order place [] = .ok before) (henv : Overrides env)
    (halone : ∀ v ∈ env, ∀ k, v.setting? = some k →
      ∃ alone, s.loadIn order place [v] = .ok alone) :
    ∃ after, s.loadIn order place env = .ok after ∧
      s.loadIn order place (env.filter fun v => v.path?.isSome) = .ok after ∧
      (∀ v ∈ env, ∀ k, v.setting? = some k →
        ∃ alone, s.loadIn order place [v] = .ok alone ∧ k.get after = k.get alone) ∧
      (∀ k, (∀ v ∈ env, v.setting? ≠ some k) →
        ¬ (place.Lists order k.part ∧ Touches env k.part) → k.get after = k.get before) ∧
      ∀ k, (∀ v ∈ env, v.setting? ≠ some k) →
        place.Lists order k.part → Touches env k.part → k.get after = k.get .default := by
  obtain ⟨hsections, hbefore⟩ : SectionsIn (place.root order) ∧
      ∀ k : Setting, k.of? (place.root order) = some (k.get before) := by
    have hnothing := (loadIn_eq_ok_iff hload).mp hload
    rwa [show Layer.ofEnvironment [] = [] from rfl, order_nil horder] at hnothing
  obtain ⟨changes, hchanges, happly⟩ := henv.exists_changes (horder _)
  have hread : ∀ v ∈ env, ∀ k, v.setting? = some k →
      ∃ alone, s.loadIn order place [v] = .ok alone ∧
        k.read? (Variable.valueAt k.pathText v.value) = some (k.get alone) := by
    intro v hv k hk
    obtain ⟨alone, hloaded⟩ := halone v hv k hk
    exact ⟨alone, hloaded, read?_of_loadIn_single horder hload hk hloaded⟩
  have hreadable : Readable (setAll (place.root order) changes) := by
    refine readable_of_changes hchanges ⟨hsections, fun k => ⟨_, hbefore k⟩⟩ fun v hv k hk => ?_
    obtain ⟨alone, -, hvalue⟩ := hread v hv k hk
    exact ⟨_, hvalue⟩
  obtain ⟨after, hafter⟩ := exists_loadIn hload (happly _ ▸ hreadable)
  have hof := ((loadIn_eq_ok_iff hload).mp hafter).2
  rw [happly] at hof
  have hget : ∀ {k : Setting} {x : k.Content},
      k.of? (setAll (place.root order) changes) = some x → k.get after = x :=
    fun h => Option.some.inj ((hof _).symm.trans h)
  refine ⟨after, hafter, ?_, ?_, ?_, ?_⟩
  · rw [loadIn_eq_of_loadIn hload, Layer.ofEnvironment_filter, ← loadIn_eq_of_loadIn hload, hafter]
  · intro v hv k hk
    obtain ⟨alone, hloaded, hvalue⟩ := hread v hv k hk
    exact ⟨alone, hloaded, hget ((henv.of?_of_mem hchanges hv hk).trans hvalue)⟩
  · intro k hk hkept
    exact hget ((Setting.of?_of_kept hchanges hsections hk hkept).trans (hbefore k))
  · intro k hk hlists htouches
    exact hget (Setting.of?_of_lost hchanges hk hlists htouches)

/-- Two overrides in a section that is a table, with another variable between them, and everything
set from the last to the first. -/
theorem overrides_of_table :
    let place := Place.file (Utf8.ofString "server: \x7bmax_connections: 4\x7d\n")
    let env : List Variable := [⟨"STEAM_PROXY_SERVER__MAX_MESSAGE_SIZE", "100"⟩, ⟨"PATH", "/bin"⟩,
      ⟨"STEAM_PROXY_SERVER__BIND_ADDRESS", "::"⟩]
    (∀ layer : Layer, layer.reverse.Perm layer) ∧ Overrides env ∧
      (⟨"."⟩ : Store).loadIn List.reverse place [] =
        .ok { Settings.default with server := ⟨"0.0.0.0", 4, 4194304⟩ } ∧
      (∀ v ∈ env, ∀ k, v.setting? = some k →
        ∃ alone, (⟨"."⟩ : Store).loadIn List.reverse place [v] = .ok alone) ∧
      ∃ after, (⟨"."⟩ : Store).loadIn List.reverse place env = .ok after ∧
        after.server.maxConnections = 4 := by
  intro place env
  have horder : ∀ layer : Layer, layer.reverse.Perm layer := List.reverse_perm
  have henv : Overrides env := ⟨by decide +kernel, by decide +kernel⟩
  have hload : (⟨"."⟩ : Store).loadIn List.reverse place [] =
      .ok { Settings.default with server := ⟨"0.0.0.0", 4, 4194304⟩ } := by decide +kernel
  have hsize : (⟨"."⟩ : Store).loadIn List.reverse place
      [⟨"STEAM_PROXY_SERVER__MAX_MESSAGE_SIZE", "100"⟩] =
      .ok { Settings.default with server := ⟨"0.0.0.0", 4, 100⟩ } := by decide +kernel
  have hother : (⟨"."⟩ : Store).loadIn List.reverse place [⟨"PATH", "/bin"⟩] =
      .ok { Settings.default with server := ⟨"0.0.0.0", 4, 4194304⟩ } := by decide +kernel
  have haddress : (⟨"."⟩ : Store).loadIn List.reverse place
      [⟨"STEAM_PROXY_SERVER__BIND_ADDRESS", "::"⟩] =
      .ok { Settings.default with server := ⟨"::", 4, 4194304⟩ } := by decide +kernel
  have halone : ∀ v ∈ env, ∀ k, v.setting? = some k →
      ∃ alone, (⟨"."⟩ : Store).loadIn List.reverse place [v] = .ok alone :=
    List.forall_mem_cons.mpr ⟨fun _ _ => ⟨_, hsize⟩, List.forall_mem_cons.mpr
      ⟨fun _ _ => ⟨_, hother⟩, List.forall_mem_singleton.mpr fun _ _ => ⟨_, haddress⟩⟩⟩
  obtain ⟨after, hafter, -, -, hkept, -⟩ := overrides_keep_apart ⟨"."⟩ horder hload henv halone
  have hlists : ¬ Part.server.IsListed (place.root List.reverse) := by decide +kernel
  exact ⟨horder, henv, hload, halone, after, hafter,
    hkept .maxConnections (by decide +kernel) fun hlost => hlists hlost.1⟩

/-- A list of two fields, and a variable for the third. -/
theorem override_of_list :
    let place := Place.file (Utf8.ofString "server: [localhost, 4]\n")
    (⟨"."⟩ : Store).load place [] =
        .ok { Settings.default with server := ⟨"localhost", 4, 4194304⟩ } ∧
      (⟨"."⟩ : Store).load place [⟨"STEAM_PROXY_SERVER__MAX_MESSAGE_SIZE", "100"⟩] =
        .ok { Settings.default with server := ⟨"0.0.0.0", 1, 100⟩ } := by
  decide +kernel

end Store

end Settings

end PlatformProxy
