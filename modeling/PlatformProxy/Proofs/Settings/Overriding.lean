import Mathlib.Data.List.Induction
import PlatformProxy.Proofs.Settings.Reading
import PlatformProxy.Proofs.Text.Characters
import PlatformProxy.Settings.Store

/-!
# Texts from the environment

The value of a variable is taken for a truth value or a number where it looks like one, before it
is known what it is for. Where a text is wanted, a truth value or a number is printed again, and
what is printed need not be what was written: `007` comes out as `7`. Where the list of tags is
wanted it does not help at all, as only a text is cut at its commas.

So a text setting gets the text of its variable unless the text is another spelling of a truth
value or a number, and the tags are the pieces of their variable unless it looks like one. A text
with a comma does not look like one, so the tags are at risk only where there is a single one.

## Main definitions

* `Settings.TextSetting` — the settings that are texts
* `Settings.Variable.printed` — the text that such a setting gets

## Main results

* `Settings.Store.load_append` — one more variable sets one more value
* `Settings.Variable.value?_eq_none_of_mem` — texts that look like nothing else
* `Settings.Store.overrides_reach_texts` — what the settings are
-/

namespace PlatformProxy

namespace Settings

open Value

/-! ### What a variable sets -/

namespace Variable

/-- What the value of a variable looks like is a truth value or a number. -/
theorem value?_cases {t : String} {v : Value} (h : value? t = some v) :
    (∃ b, v = .flag b) ∨ (∃ i, v = .integer i) ∨ ∃ x, v = .real x := by
  rw [value?] at h
  split at h
  · exact .inl ⟨true, (Option.some.inj h).symm⟩
  · split at h
    · exact .inl ⟨false, (Option.some.inj h).symm⟩
    · split at h
      · exact .inr (.inl ⟨_, (Option.some.inj h).symm⟩)
      · exact .inr (.inr ⟨_, (Option.some.inj h).symm⟩)
      · exact absurd h nofun

/-- The text that a text setting gets from a variable. -/
def printed (t : String) : String := ((value? t).bind Value.text?).getD t

/-- A text that writes a truth value or a number in another way than it is printed. -/
def IsOtherSpelling (t : String) : Prop := ∃ v, value? t = some v ∧ v.text? ≠ some t

theorem text?_of_value? {t : String} {v : Value} (h : value? t = some v) :
    v.text? = some (printed t) := by
  rw [printed, h, Option.bind_some]
  obtain ⟨b, rfl⟩ | ⟨i, rfl⟩ | ⟨x, rfl⟩ := value?_cases h <;> rfl

theorem printed_eq_self_iff {t : String} : printed t = t ↔ ¬ IsOtherSpelling t := by
  cases hvalue : value? t with
  | none => simp [printed, IsOtherSpelling, hvalue]
  | some v => simp [IsOtherSpelling, hvalue, text?_of_value? hvalue]

/-- The pieces of a text between its commas. -/
def pieces (t : String) : List String := (t.toList.splitOn ',').map String.ofList

variable {path t : String}

theorem valueAt_of_some {v : Value} (h : value? t = some v) : valueAt path t = v := by
  rw [valueAt, h]

theorem replaces_valueAt (path t : String) : (valueAt path t).Replaces := by
  intro old
  cases hvalue : value? t with
  | none =>
    rw [valueAt, hvalue]
    dsimp only
    split <;> rw [merge] <;> exact nofun
  | some v =>
    rw [valueAt_of_some hvalue]
    obtain ⟨b, rfl⟩ | ⟨i, rfl⟩ | ⟨x, rfl⟩ := value?_cases hvalue <;> rw [merge] <;> exact nofun

theorem text?_valueAt (hpath : path ≠ listPath) : (valueAt path t).text? = some (printed t) := by
  cases hvalue : value? t with
  | none => simp [valueAt, hvalue, if_neg hpath, printed, Value.text?]
  | some v => rw [valueAt_of_some hvalue, text?_of_value? hvalue]

theorem optionalText?_valueAt (hpath : path ≠ listPath) :
    (valueAt path t).optionalText? = some (some (printed t)) := by
  rw [optionalText?]
  · rw [text?_valueAt hpath]
    rfl
  · intro hnothing
    exact absurd (text?_valueAt (t := t) hpath) (by rw [hnothing]; nofun)

theorem texts?_valueAt_listPath :
    (valueAt listPath t).texts? = if value? t = none then some (pieces t) else none := by
  cases hvalue : value? t with
  | none =>
    rw [valueAt, hvalue, if_pos rfl]
    show ((t.toList.splitOn ',').map fun piece => Value.text (String.ofList piece)).mapM
      Value.text? = some (pieces t)
    rw [List.mapM_map]
    exact List.mapM_pure
  | some v =>
    rw [valueAt_of_some hvalue, if_neg nofun]
    obtain ⟨b, rfl⟩ | ⟨i, rfl⟩ | ⟨x, rfl⟩ := value?_cases hvalue <;> rfl

/-- A text with any other character looks like nothing else. -/
theorem value?_eq_none_of_mem {t : String} {c : Char} (hc : c ∈ t.toList) (hascii : c.toNat < 0x80)
    (hnumber : Floating.isNumberChar c = false) : value? t = none := by
  have halpha := (Floating.isAlphanum_of_isNumberChar hnumber).1
  have hlower := Text.toLower_mem_lower hc hascii
  rw [Text.toLower_eq_self halpha] at hlower
  have hword : ∀ word : String, word.toList.all Char.isAlphanum = true →
      String.ofList (Text.lower t.toList) ≠ word := by
    rintro _ hall rfl
    rw [String.toList_ofList] at hall
    rw [List.all_eq_true.mp hall c hlower] at halpha
    exact absurd halpha nofun
  rw [value?, if_neg (hword _ (by decide)), if_neg (hword _ (by decide)),
    Text.readInt64?_eq_none_of_mem hc hnumber, Floating.read?_eq_none_of_mem hc hnumber]

end Variable

/-! ### One more variable -/

section Load

variable {env : List Variable}

theorem Layer.ofEnvironment_concat (env : List Variable) {v : Variable} {path : String}
    (hpath : v.path? = some path) :
    Layer.ofEnvironment (env ++ [v]) =
      changeMember path (fun _ => Variable.valueAt path v.value) (Layer.ofEnvironment env) := by
  rw [ofEnvironment, List.foldl_append, List.foldl_cons, hpath]
  rfl

theorem Layer.exists_variable {m : String × Value} (h : m ∈ Layer.ofEnvironment env) :
    ∃ v ∈ env, v.path? = some m.1 := by
  induction env using List.reverseRecOn generalizing m with
  | nil => exact absurd h List.not_mem_nil
  | append_singleton env v ih =>
    have hbefore : ∀ {m}, m ∈ Layer.ofEnvironment env → ∃ w ∈ env ++ [v], w.path? = some m.1 := by
      intro m hm
      obtain ⟨w, hw, hpath⟩ := ih hm
      exact ⟨w, List.mem_append_left _ hw, hpath⟩
    cases hpath : v.path? with
    | none =>
      rw [ofEnvironment, List.foldl_append, List.foldl_cons, hpath] at h
      exact hbefore h
    | some path =>
      rw [ofEnvironment_concat env hpath] at h
      obtain hname | ⟨m', hm', hname⟩ := fst_of_mem_changeMember h
      · exact ⟨v, List.mem_append_right _ (List.mem_singleton_self v), hname ▸ hpath⟩
      · exact hname ▸ hbefore hm'

/-- The variable of a path that no other variable is for sets its value last. -/
theorem Layer.ofEnvironment_concat_of_fresh {v : Variable} {path : String}
    (hpath : v.path? = some path) (hfresh : ∀ w ∈ env, w.path? ≠ some path) :
    Layer.ofEnvironment (env ++ [v]) =
      Layer.ofEnvironment env ++ [(path, Variable.valueAt path v.value)] := by
  rw [ofEnvironment_concat env hpath]
  refine changeMember_of_fresh _ fun m hm => ?_
  rintro rfl
  obtain ⟨w, hw, hsame⟩ := exists_variable hm
  exact hfresh w hw hsame

namespace Store

variable {s : Store} {place : Place} {before : Settings}

/-- **One more variable sets one more value.** -/
theorem load_append (hload : s.load place env = .ok before) {v : Variable} {path : String}
    (hpath : v.path? = some path) (hfresh : ∀ w ∈ env, w.path? ≠ some path) :
    ∃ root, ofValue? root = some before ∧
      s.load place (env ++ [v]) =
        match ofValue? ((Path.ofText path).set (Variable.valueAt path v.value) root) with
        | none => .error (.malformed s.path)
        | some after => .ok after := by
  rw [load, loadIn] at hload
  split at hload
  · exact absurd hload nofun
  · rename_i layer hlayer
    split at hload
    · exact absurd hload nofun
    · rename_i settings hsettings
      obtain rfl := Except.ok.inj hload
      refine ⟨_, hsettings, ?_⟩
      rw [load, loadIn, hlayer]
      dsimp only
      rw [Layer.ofEnvironment_concat_of_fresh hpath hfresh]
      have happly :
          [layer, Layer.ofEnvironment env ++ [(path, Variable.valueAt path v.value)]].foldl
            Layer.apply (.table []) =
          (Path.ofText path).set (Variable.valueAt path v.value)
            ([layer, Layer.ofEnvironment env].foldl Layer.apply (.table [])) :=
        List.foldl_append
      let loaded (root : Value) : Except StoreError Settings :=
        match ofValue? root with
        | none => .error (.malformed s.path)
        | some after => .ok after
      exact congrArg loaded happly

end Store

end Load

/-! ### Texts and tags -/

/-- The settings that are texts. -/
inductive TextSetting
  | bindAddress
  | snapshot
  | directory
  | fileStem
  deriving DecidableEq, Repr

namespace TextSetting

def variableName : TextSetting → String
  | bindAddress => "STEAM_PROXY_SERVER__BIND_ADDRESS"
  | snapshot => "STEAM_PROXY_STEAM__SNAPSHOT"
  | directory => "STEAM_PROXY_LOGGING__DIR"
  | fileStem => "STEAM_PROXY_LOGGING__PREFIX"

def path : TextSetting → String
  | bindAddress => "server.bind_address"
  | snapshot => "steam.snapshot"
  | directory => "logging.dir"
  | fileStem => "logging.prefix"

def get (settings : Settings) : TextSetting → Option String
  | bindAddress => some settings.server.bindAddress
  | snapshot => settings.steam.snapshot
  | directory => some settings.logging.directory
  | fileStem => some settings.logging.fileStem

theorem path?_variableName (setting : TextSetting) (t : String) :
    (⟨setting.variableName, t⟩ : Variable).path? = some setting.path := by
  show (⟨setting.variableName, ""⟩ : Variable).path? = some setting.path
  cases setting <;> decide +kernel

theorem path_ne_listPath (setting : TextSetting) : setting.path ≠ Variable.listPath := by
  cases setting <;> decide

/-- Setting the value of a text setting gives it that text. -/
theorem exists_of_set (setting : TextSetting) {root : Value} {before : Settings}
    (h : ofValue? root = some before) {w : Value} {t : String} (hw : w.Replaces)
    (htext : w.text? = some t) (hoptional : w.optionalText? = some (some t)) :
    ∃ after, ofValue? ((Path.ofText setting.path).set w root) = some after ∧
      setting.get after = some t := by
  have hset (k : Setting) {x : k.Content} (hread : k.read? w = some x) :
      ∃ after, ofValue? (k.path.set w root) = some after ∧ k.get after = x :=
    Option.map_eq_some_iff.mp ((Setting.map_get_set h hw k).trans hread)
  cases setting with
  | bindAddress =>
    obtain ⟨after, hafter, hget⟩ := hset .bindAddress htext
    exact ⟨after, hafter, congrArg some hget⟩
  | snapshot => exact hset .snapshot hoptional
  | directory =>
    obtain ⟨after, hafter, hget⟩ := hset .directory htext
    exact ⟨after, hafter, congrArg some hget⟩
  | fileStem =>
    obtain ⟨after, hafter, hget⟩ := hset .fileStem htext
    exact ⟨after, hafter, congrArg some hget⟩

end TextSetting

/-- The variable for the tags. -/
def tagsVariable : String := "STEAM_PROXY_STEAM__REQUIRED_TAGS"

theorem path?_tagsVariable (t : String) :
    (⟨tagsVariable, t⟩ : Variable).path? = some Variable.listPath := by
  show (⟨tagsVariable, ""⟩ : Variable).path? = some Variable.listPath
  decide +kernel

theorem ofText_listPath : Path.ofText Variable.listPath = Setting.requiredTags.path := by
  decide +kernel

namespace Store

variable {env : List Variable} {place : Place} {before : Settings}

/-- **Texts from the environment.** Settings that can be loaded can also be loaded with one more
variable for a text setting, whatever its text is, and the setting gets the text unless it is
another spelling of a truth value or a number, which is printed. With a variable for the tags they
are the pieces of its text, unless it looks like a truth value or a number: then nothing can be
loaded. -/
theorem overrides_reach_texts (s : Store) (hload : s.load place env = .ok before) (t : String) :
    (∀ setting : TextSetting, (∀ v ∈ env, v.path? ≠ some setting.path) →
      ∃ after, s.load place (env ++ [⟨setting.variableName, t⟩]) = .ok after ∧
        setting.get after = some (Variable.printed t) ∧
        (setting.get after = some t ↔ ¬ Variable.IsOtherSpelling t)) ∧
    ((∀ v ∈ env, v.path? ≠ some Variable.listPath) →
      (s.load place (env ++ [⟨tagsVariable, t⟩])).map
          (fun after => after.steam.requiredTags) =
        if Variable.value? t = none then .ok (Variable.pieces t)
        else .error (.malformed s.path)) := by
  constructor
  · intro setting hfresh
    obtain ⟨root, hroot, hafter⟩ := load_append hload (setting.path?_variableName t) hfresh
    obtain ⟨after, hset, hget⟩ := setting.exists_of_set hroot (Variable.replaces_valueAt _ t)
      (Variable.text?_valueAt setting.path_ne_listPath)
      (Variable.optionalText?_valueAt setting.path_ne_listPath)
    rw [hset] at hafter
    refine ⟨after, hafter, hget, ?_⟩
    rw [hget, Option.some.injEq, Variable.printed_eq_self_iff]
  · intro hfresh
    obtain ⟨root, hroot, hafter⟩ := load_append hload (path?_tagsVariable t) hfresh
    have hset : (ofValue? _).map _ = _ :=
      (Setting.map_get_set hroot (Variable.replaces_valueAt Variable.listPath t)
        .requiredTags).trans Variable.texts?_valueAt_listPath
    rw [hafter, ofText_listPath]
    by_cases hvalue : Variable.value? t = none
    · rw [if_pos hvalue] at hset ⊢
      obtain ⟨after, hafter, hget⟩ := Option.map_eq_some_iff.mp hset
      rw [hafter]
      exact congrArg Except.ok hget
    · rw [if_neg hvalue] at hset ⊢
      rw [Option.map_eq_none_iff.mp hset]
      rfl

/-- A numeral with zeros in front, over the defaults. -/
theorem override_of_zeros :
    (⟨"."⟩ : Store).load .absent [] = .ok .default ∧ Variable.printed "007" = "7" ∧
      ∃ after, (⟨"."⟩ : Store).load .absent [⟨"STEAM_PROXY_LOGGING__PREFIX", "007"⟩] = .ok after ∧
        after.logging.fileStem = "7" := by
  have hdefault : (⟨"."⟩ : Store).load .absent [] = .ok .default := by decide +kernel
  have hprinted : Variable.printed "007" = "7" := by decide +kernel
  obtain ⟨after, hload, hget, -⟩ :=
    (overrides_reach_texts ⟨"."⟩ hdefault "007").1 .fileStem (List.forall_mem_nil _)
  exact ⟨hdefault, hprinted, after, hload, Option.some.inj (hget.trans (congrArg some hprinted))⟩

/-- A single tag that is a numeral, and a text that is one with zeros in front. -/
theorem overrides_that_look_like_numbers :
    (⟨"."⟩ : Store).load .absent [⟨tagsVariable, "2048"⟩] =
        .error (.malformed "./steam-proxy.yaml") ∧
      (⟨"."⟩ : Store).load .absent [⟨TextSetting.fileStem.variableName, "007"⟩] =
        .ok { Settings.default with logging := { Logging.default with fileStem := "7" } } := by
  decide +kernel

end Store

end Settings

end PlatformProxy
