import Mathlib.Data.List.Infix
import PlatformProxy.Platform.Simulator
import PlatformProxy.Proofs.Text.Lowering

/-!
# What a request asks for

A request for a page asks for the items of an application that have certain tags and contain a
text in any letter case. Texts are compared in lower case, each of them lower-cased as a whole.

That was meant to find more than what is literally there, and it does, but it also misses some of
it. A capital sigma is lower-cased by what is around it, so `ΑΣ` is not found in `ΑΣΑ`. What is
literally there is found wherever the capital sigmas of the text have the form that they have in
the text alone, and there are texts for which this is so wherever they stand.

## Main definitions

* `Platform.PageRequest.Admits` — the items of the application that have the tags
* `Platform.PageRequest.Covers` — the items that a request asks for

## Main results

* `Platform.Simulator.isMatch_iff_covers` — the client decides which items these are
* `Platform.Simulator.literal_texts_are_found` — where a text is found that is literally there
* `Platform.Simulator.literal_text_is_missed` — and one that is not
-/

namespace PlatformProxy

namespace Platform

/-- An item of the application that has the tags: one of them, if there are any, or all. -/
structure PageRequest.Admits (request : PageRequest) (app : Option AppId) (item : Item) : Prop where
  app : ∀ a ∈ app, a = request.consumerApp
  one : request.matchAnyTag = true →
    request.requiredTags = [] ∨ ∃ tag ∈ request.requiredTags, tag ∈ Tags.pieces item.tags
  all : request.matchAnyTag = false → ∀ tag ∈ request.requiredTags, tag ∈ Tags.pieces item.tags

/-- An item that a request asks for. It also contains the text, if there is one, in any letter
case. -/
structure PageRequest.Covers (request : PageRequest) (app : Option AppId) (item : Item) : Prop
    extends request.Admits app item where
  found : ∀ t ∈ request.searchText, t ≠ "" →
    Text.lower t.toList <:+: Text.lower item.title.toList ∨
      Text.lower t.toList <:+: Text.lower item.description.toList

namespace Simulator

/-! ### Matching items -/

theorem occursIn_iff (needle text : List Char) :
    occursIn needle text = true ↔ needle <:+: text := by
  induction text with
  | nil => rw [occursIn, List.isEmpty_iff, List.infix_nil]
  | cons c rest ih => rw [occursIn, Bool.or_eq_true, List.isPrefixOf_iff_prefix, ih,
      List.infix_cons_iff]

theorem hasText_iff (text : Option String) (item : Item) :
    hasText text item = true ↔ ∀ t ∈ text, t ≠ "" →
      Text.lower t.toList <:+: Text.lower item.title.toList ∨
        Text.lower t.toList <:+: Text.lower item.description.toList := by
  cases text with
  | none => simp [hasText]
  | some t =>
    simp only [hasText, Bool.or_eq_true, occursIn_iff, String.isEmpty_iff, Option.mem_some_iff,
      forall_eq', or_assoc]
    exact Decidable.or_iff_not_imp_left

theorem hasTags_iff (request : PageRequest) (item : Item) :
    hasTags request item = true ↔
      (request.matchAnyTag = true → request.requiredTags = [] ∨
        ∃ tag ∈ request.requiredTags, tag ∈ Tags.pieces item.tags) ∧
      (request.matchAnyTag = false →
        ∀ tag ∈ request.requiredTags, tag ∈ Tags.pieces item.tags) := by
  rw [hasTags]
  cases htags : request.requiredTags with
  | nil => simp
  | cons tag tags => cases hany : request.matchAnyTag <;> simp

theorem isOfApp_iff (request : PageRequest) (app : Option AppId) :
    app.all (· = request.consumerApp) = true ↔ ∀ a ∈ app, a = request.consumerApp := by
  cases app <;> simp

variable {request : PageRequest} {app : Option AppId} {item : Item}

/-- **The items that match a request are those that it asks for.** -/
theorem isMatch_iff_covers : isMatch request app item = true ↔ request.Covers app item := by
  rw [isMatch, Bool.and_eq_true, Bool.and_eq_true, isOfApp_iff, hasTags_iff, hasText_iff]
  exact ⟨fun h => ⟨⟨h.1.1, h.1.2.1, h.1.2.2⟩, h.2⟩, fun h => ⟨⟨h.app, h.one, h.all⟩, h.found⟩⟩

instance : Decidable (request.Covers app item) := decidable_of_iff _ isMatch_iff_covers

instance : Decidable (request.Admits app item) :=
  decidable_of_iff (hasTags request item = true ∧ app.all (· = request.consumerApp) = true)
    (by
      rw [hasTags_iff, isOfApp_iff]
      exact ⟨fun h => ⟨h.2, h.1.1, h.1.2⟩, fun h => ⟨⟨h.one, h.all⟩, h.app⟩⟩)

/-! ### Texts that are literally there -/

/-- An item with a title. -/
def titled (title : String) : Item :=
  ⟨1, 7, "level", title, "", 90, 90, 1, 0, 0, .zero _ false, ""⟩

/-- A request for the items that contain a text. -/
def searching (text : String) : PageRequest :=
  ⟨.newestFirst, .readyToUse, 480, 480, 1, [], true, some text⟩

theorem admits_searching (text title : String) :
    (searching text).Admits none (titled title) :=
  ⟨nofun, fun _ => .inl rfl, fun _ _ => nofun⟩

theorem isMatch_of_found {text : String} (hadmits : request.Admits app item)
    (htext : request.searchText = some text)
    (hfound : Text.lower text.toList <:+: Text.lower item.title.toList ∨
      Text.lower text.toList <:+: Text.lower item.description.toList) :
    isMatch request app item = true := by
  refine isMatch_iff_covers.mpr ⟨hadmits, fun t ht _ => ?_⟩
  obtain rfl := Option.some.inj (htext.symm.trans ht)
  exact hfound

/-- An item with a title and no description matches only where its title has the text. -/
theorem infix_lower_of_isMatch {text title : String}
    (h : isMatch (searching text) none (titled title) = true) :
    Text.lower text.toList <:+: Text.lower title.toList := by
  by_cases hempty : text = ""
  · subst hempty
    exact List.nil_infix
  · rcases (isMatch_iff_covers.mp h).found text rfl hempty with htitle | hdescription
    · exact htitle
    · rw [List.eq_nil_of_infix_nil hdescription]
      exact List.nil_infix

/-- **Where a text is found that is literally there.** An item that a request admits matches if the
text of the request stands in its title or its description, and the capital sigmas of the text have
the form there that they have in the text alone. A text is found wherever it stands if and only if
it exposes no capital sigma. -/
theorem literal_texts_are_found (text : String) :
    (∀ (request : PageRequest) (app : Option AppId) (item : Item), request.Admits app item →
      request.searchText = some text →
      ∀ field ∈ [item.title, item.description], ∀ before after : List Char,
        field.toList = before ++ text.toList ++ after →
        Text.KeepsSigmas before text.toList after → isMatch request app item = true) ∧
    ((∀ (request : PageRequest) (app : Option AppId) (item : Item), request.Admits app item →
      request.searchText = some text →
      (text.toList <:+: item.title.toList ∨ text.toList <:+: item.description.toList) →
        isMatch request app item = true) ↔ ¬ Text.Exposes text.toList) := by
  constructor
  · intro request app item hadmits htext field hfield before after hplace hkeeps
    have hpart := Text.lowerBetween_infix_lower before text.toList after
    rw [Text.lowerBetween_eq_lower_iff.mpr hkeeps, ← hplace] at hpart
    refine isMatch_of_found hadmits htext ?_
    rcases List.mem_pair.mp hfield with rfl | rfl
    · exact .inl hpart
    · exact .inr hpart
  · rw [← Text.forall_infix_lower_iff]
    constructor
    · intro h t ht
      have hmatch := h _ none (titled (String.ofList t)) (admits_searching text _) rfl
        (.inl (by rwa [titled, String.toList_ofList]))
      have hfound := infix_lower_of_isMatch hmatch
      rwa [String.toList_ofList] at hfound
    · intro h request app item hadmits htext hplace
      exact isMatch_of_found hadmits htext (hplace.imp (h _) (h _))

/-- A sigma within a word, and one at the end of a word. -/
theorem literal_sigmas_are_found :
    ((searching "ΑΣΗ").Admits none (titled "ΟΔΟΣ ΑΣΗΜΑ") ∧
      "ΑΣΗ".toList <:+: "ΟΔΟΣ ΑΣΗΜΑ".toList ∧ ¬ Text.Exposes "ΑΣΗ".toList ∧
      isMatch (searching "ΑΣΗ") none (titled "ΟΔΟΣ ΑΣΗΜΑ") = true) ∧
    ((searching "ΟΣ").Admits none (titled "ΟΔΟΣ ΑΣΗΜΑ") ∧
      "ΟΔΟΣ ΑΣΗΜΑ".toList = "ΟΔ".toList ++ "ΟΣ".toList ++ " ΑΣΗΜΑ".toList ∧
      Text.KeepsSigmas "ΟΔ".toList "ΟΣ".toList " ΑΣΗΜΑ".toList ∧
      isMatch (searching "ΟΣ") none (titled "ΟΔΟΣ ΑΣΗΜΑ") = true) := by
  have hplace : "ΟΔΟΣ ΑΣΗΜΑ".toList = "ΟΔΟΣ ".toList ++ "ΑΣΗ".toList ++ "ΜΑ".toList := by decide
  have hinfix : "ΑΣΗ".toList <:+: "ΟΔΟΣ ΑΣΗΜΑ".toList := ⟨_, _, hplace.symm⟩
  have hhidden : ¬ Text.Exposes "ΑΣΗ".toList := by decide +kernel
  have hend : "ΟΔΟΣ ΑΣΗΜΑ".toList = "ΟΔ".toList ++ "ΟΣ".toList ++ " ΑΣΗΜΑ".toList := by decide
  have hkeeps : Text.KeepsSigmas "ΟΔ".toList "ΟΣ".toList " ΑΣΗΜΑ".toList := by decide +kernel
  exact ⟨⟨admits_searching _ _, hinfix, hhidden,
      (literal_texts_are_found "ΑΣΗ").2.mpr hhidden _ none _ (admits_searching _ _) rfl
        (.inl hinfix)⟩,
    ⟨admits_searching _ _, hend, hkeeps,
      (literal_texts_are_found "ΟΣ").1 _ none _ (admits_searching _ _) rfl _
        List.mem_cons_self _ _ hend hkeeps⟩⟩

/-- A sigma at the end of a text that is within a word of a title. -/
theorem literal_text_is_missed :
    (searching "ΑΣ").Admits none (titled "ΑΣΑ") ∧ "ΑΣ".toList <:+: (titled "ΑΣΑ").title.toList ∧
      isMatch (searching "ΑΣ") none (titled "ΑΣΑ") = false :=
  ⟨admits_searching _ _, ⟨[], ['Α'], by decide⟩, by decide +kernel⟩

end Simulator

end Platform

end PlatformProxy
