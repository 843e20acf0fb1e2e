import Mathlib.Data.List.Basic
import PlatformProxy.Tags

/-!
# Tags through text and back

A text is split at its delimiters and empty pieces are left out. So a delimiter more makes no
difference, wherever it stands, and a list of tags that is written with delimiters between the tags
is read as that list.

Everything follows from one equation: a text with a delimiter in it has the tags before the
delimiter and then those behind it. By it the tags of texts that are put together are the tags of
the texts, and a tag alone is its only tag.

## Main definitions

* `Tags.IsTag` — the texts that are tags
* `Tags.spread` — tags with any number of delimiters around them

## Main results

* `Tags.split_append` — delimiters separate
* `Tags.split_intercalate` — what is put together is split into what its parts are split into
* `Tags.splitting_undoes_joining` — tags are read back as they were written, and other texts as the
  tags in them
* `Tags.eq_split` — nothing else has these equations
-/

namespace PlatformProxy

namespace Tags

/-- A text that can be listed between delimiters and found again. -/
structure IsTag (tag : String) : Prop where
  notEmpty : tag ≠ ""
  whole : delimiter ∉ tag.toList

/-- Delimiters in a row. -/
def delimiters (n : Nat) : String := String.ofList (List.replicate n delimiter)

/-- Texts with a delimiter between any two, `first` delimiters before them, and behind each text as
many more as stand with it. -/
def spread (first : Nat) (items : List (String × Nat)) : String :=
  delimiters first ++ ",".intercalate (items.map fun item => item.1 ++ delimiters item.2)

theorem mem_split {raw tag : String} : tag ∈ split raw ↔ tag ∈ pieces raw ∧ tag ≠ "" := by
  simp [split, List.mem_filter]

/-! ### Pieces are tags -/

theorem notMem_of_mem_splitOn {s piece : List Char} (h : piece ∈ s.splitOn delimiter) :
    delimiter ∉ piece := by
  induction s generalizing piece with
  | nil =>
    obtain rfl := List.mem_singleton.mp h
    exact List.not_mem_nil
  | cons c s ih =>
    rw [List.splitOn_cons_eq_if_modifyHead] at h
    split at h
    · rcases List.mem_cons.mp h with rfl | h
      · exact List.not_mem_nil
      · exact ih h
    · rename_i hc
      -- The character goes to the front of the first piece.
      obtain ⟨front, others, hpieces⟩ :=
        List.exists_cons_of_ne_nil (List.splitOn_ne_nil delimiter s)
      rw [hpieces, List.modifyHead_cons] at h
      rw [hpieces] at ih
      rcases List.mem_cons.mp h with rfl | h
      · intro hmem
        rcases List.mem_cons.mp hmem with rfl | hmem
        · simp at hc
        · exact ih List.mem_cons_self hmem
      · exact ih (List.mem_cons_of_mem _ h)

theorem isTag_of_mem_split {raw tag : String} (h : tag ∈ split raw) : IsTag tag := by
  obtain ⟨hpiece, hne⟩ := mem_split.mp h
  obtain ⟨piece, hmem, rfl⟩ := List.mem_map.mp hpiece
  refine ⟨hne, ?_⟩
  rw [String.toList_ofList]
  exact notMem_of_mem_splitOn hmem

/-! ### Splitting what is put together -/

theorem pieces_append (a b : String) : pieces (a ++ "," ++ b) = pieces a ++ pieces b := by
  have htext : (a ++ "," ++ b).toList = a.toList ++ delimiter :: b.toList := by
    simp [delimiter]
  rw [pieces, htext, List.splitOn_append_cons_self, List.map_append]
  rfl

/-- **Delimiters separate.** -/
theorem split_append (a b : String) : split (a ++ "," ++ b) = split a ++ split b := by
  rw [split, pieces_append, List.filter_append]
  rfl

theorem split_empty : split "" = [] := by
  decide

/-- A tag is its only tag. -/
theorem split_eq_singleton {tag : String} (h : IsTag tag) : split tag = [tag] := by
  have hpieces : pieces tag = [tag] := by
    rw [pieces, List.splitOn_eq_singleton h.whole, List.map_singleton, String.ofList_toList]
  simp [split, hpieces, h.notEmpty]

/-- A reader that delimiters separate reads joined texts one by one. -/
theorem apply_intercalate {f : String → List String} (hempty : f "" = [])
    (happend : ∀ a b, f (a ++ "," ++ b) = f a ++ f b) (texts : List String) :
    f (",".intercalate texts) = texts.flatMap f := by
  induction texts with
  | nil => exact hempty
  | cons text texts ih =>
    cases texts with
    | nil => simp
    | cons text' texts =>
      rw [String.intercalate_cons_cons, happend, ih]
      rfl

theorem split_intercalate (texts : List String) :
    split (",".intercalate texts) = texts.flatMap split :=
  apply_intercalate split_empty split_append texts

theorem delimiters_succ (n : Nat) : delimiters (n + 1) = "," ++ delimiters n := by
  rw [delimiters, List.replicate_succ, String.ofList_cons]
  rfl

/-- Delimiters behind a text make no difference. -/
theorem split_append_delimiters (text : String) (n : Nat) :
    split (text ++ delimiters n) = split text := by
  induction n generalizing text with
  | zero => rw [show delimiters 0 = "" from rfl, String.append_empty]
  | succ n ih =>
    have htext : text ++ delimiters (n + 1) = text ++ "," ++ delimiters n := by
      rw [delimiters_succ, String.append_assoc]
    have hlast := split_append text ""
    rw [String.append_empty] at hlast
    rw [htext, ih, hlast, split_empty, List.append_nil]

/-- Neither do delimiters before it. -/
theorem split_delimiters_append (n : Nat) (text : String) :
    split (delimiters n ++ text) = split text := by
  induction n with
  | zero => rw [show delimiters 0 = "" from rfl, String.empty_append]
  | succ n ih =>
    have htext : delimiters (n + 1) ++ text = "" ++ "," ++ (delimiters n ++ text) := by
      rw [delimiters_succ, String.empty_append, String.append_assoc]
    rw [htext, split_append, split_empty, ih, List.nil_append]

/-- Texts with one tag each are split into these tags. -/
theorem split_intercalate_map {α : Type} {items : List α} {text tag : α → String}
    (h : ∀ item ∈ items, split (text item) = [tag item]) :
    split (",".intercalate (items.map text)) = items.map tag := by
  rw [split_intercalate, List.flatMap_map, List.flatMap_congr h]
  exact List.flatMap_pure_eq_map tag items

theorem split_intercalate_of_isTag {tags : List String} (h : ∀ tag ∈ tags, IsTag tag) :
    split (",".intercalate tags) = tags := by
  have hsplit := @split_intercalate_map String tags id id fun tag htag =>
    split_eq_singleton (h tag htag)
  rwa [List.map_id] at hsplit

theorem split_spread {items : List (String × Nat)} (h : ∀ item ∈ items, IsTag item.1)
    (first : Nat) : split (spread first items) = items.map Prod.fst := by
  rw [spread, split_delimiters_append]
  refine split_intercalate_map fun item hitem => ?_
  rw [split_append_delimiters, split_eq_singleton (h item hitem)]

/-- **Splitting undoes joining.** What a text is split into are tags. A list of tags that is joined
is split into that list, and so it is with any number of delimiters more before, between and behind
the tags. A text with a delimiter is split into the tags before it and those behind it. So the tags
of any text can be joined, and are split into the same tags. -/
theorem splitting_undoes_joining :
    (∀ raw, ∀ tag ∈ split raw, IsTag tag) ∧
    (∀ tags, (∀ tag ∈ tags, IsTag tag) → split (",".intercalate tags) = tags) ∧
    (∀ first items, (∀ item ∈ items, IsTag item.1) →
      split (spread first items) = items.map Prod.fst) ∧
    (∀ a b, split (a ++ "," ++ b) = split a ++ split b) ∧
    ∀ raw, split (",".intercalate (split raw)) = split raw := by
  refine ⟨fun raw tag => isTag_of_mem_split, fun tags => split_intercalate_of_isTag,
    fun first items hitems => split_spread hitems first, split_append, ?_⟩
  intro raw
  exact split_intercalate_of_isTag fun tag => isTag_of_mem_split

/-- Two tags joined, and the same tags with delimiters at all places. -/
theorem joined_tags_are_split :
    (∀ tag ∈ ["Sprint", "Très long"], IsTag tag) ∧
      split "Sprint,Très long" = ["Sprint", "Très long"] ∧
      (∀ item ∈ [("Sprint", 2), ("Très long", 1)], IsTag item.1) ∧
      split ",Sprint,,,Très long," = ["Sprint", "Très long"] := by
  have htags : ∀ tag ∈ ["Sprint", "Très long"], IsTag tag := by
    simp only [List.forall_mem_cons]
    exact ⟨⟨by decide, by decide⟩, ⟨by decide, by decide⟩, nofun⟩
  have hitems : ∀ item ∈ [("Sprint", 2), ("Très long", 1)], IsTag item.1 := by
    intro item hitem
    exact htags item.1 (List.mem_map_of_mem hitem)
  exact ⟨htags, splitting_undoes_joining.2.1 _ htags, hitems,
    splitting_undoes_joining.2.2.1 1 _ hitems⟩

/-! ### Other readers -/

theorem intercalate_pieces (raw : String) : ",".intercalate (pieces raw) = raw := by
  have hid : String.toList ∘ String.ofList = id := funext fun _ => String.toList_ofList
  rw [← String.toList_inj, String.toList_intercalate, pieces, List.map_map, hid, List.map_id]
  exact List.intercalate_splitOn delimiter

/-- No other reader finds the tags and is separated by delimiters. -/
theorem eq_split {f : String → List String} (hempty : f "" = [])
    (htag : ∀ tag, IsTag tag → f tag = [tag])
    (happend : ∀ a b, f (a ++ "," ++ b) = f a ++ f b) : f = split := by
  funext raw
  have hpiece : ∀ piece ∈ pieces raw, f piece = split piece := by
    intro piece hmem
    by_cases hne : piece = ""
    · rw [hne, hempty, split_empty]
    · have hpiece := isTag_of_mem_split (mem_split.mpr ⟨hmem, hne⟩)
      rw [htag piece hpiece, split_eq_singleton hpiece]
  rw [← intercalate_pieces raw, apply_intercalate hempty happend, split_intercalate]
  exact List.flatMap_congr hpiece

end Tags

end PlatformProxy
