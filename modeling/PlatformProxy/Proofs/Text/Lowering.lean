import Mathlib.Data.List.Infix
import Mathlib.Data.List.TakeWhile
import PlatformProxy.Text.Lowercase

/-!
# Lower-casing a part of a text

A text is lower-cased as a whole. Every character but one has the same lower-case form wherever it
stands. The exception is the capital sigma, whose form says whether a word ends there, and that is
decided by the nearest characters that are not passed over on both sides. These may lie outside of
a part of the text. So the lower-case form of a part need not be a part of the lower-case form:
`ας` is not in `ασα`.

A capital sigma is exposed in a part if its form there can change with what is around the part. This
is so where the part ends, or begins, before the characters that decide have come.

## Main definitions

* `Text.lowerBetween` — the lower-case form of a part, with what is around it
* `Text.KeepsSigmas` — the capital sigmas of a part have the form that they have in the part alone
* `Text.IsExposed`, `Text.Exposes` — a capital sigma that may change

## Main results

* `Text.lowerBetween_eq_lower_iff` — when a part is lower-cased as if it stood alone
* `Text.forall_infix_lower_iff` — the texts that are found in lower case wherever they are
-/

namespace PlatformProxy

namespace Text

/-- The lower-case form of a part of a text. What is before the part is given backwards. -/
def lowerBetween (before after : List Char) : List Char → List Char
  | [] => []
  | c :: rest =>
    (if c = 'Σ' then [if endsWord before (rest ++ after) then 'ς' else 'σ'] else lowerChar c) ++
      lowerBetween (c :: before) after rest

/-- Each capital sigma of a part has the form that it has in the part alone. -/
def KeepsSigmas (before s after : List Char) : Prop :=
  ∀ p q, s = p ++ 'Σ' :: q →
    endsWord (p.reverse ++ before.reverse) (q ++ after) = endsWord p.reverse q

/-! ### A whole and its parts -/

theorem flatten_lowerPieces (pieces : List (List Char)) (before s : List Char) :
    (lowerPieces pieces before s).reverse.flatten =
      pieces.reverse.flatten ++ lowerBetween before [] s := by
  induction s generalizing pieces before with
  | nil => rw [lowerPieces, lowerBetween, List.append_nil]
  | cons c s ih =>
    rw [lowerPieces, ih, lowerBetween, List.append_nil]
    simp

theorem lower_eq_lowerBetween (s : List Char) : lower s = lowerBetween [] [] s :=
  flatten_lowerPieces [] [] s

theorem lowerBetween_append (before after s t : List Char) :
    lowerBetween before after (s ++ t) =
      lowerBetween before (t ++ after) s ++ lowerBetween (s.reverse ++ before) after t := by
  induction s generalizing before with
  | nil => rfl
  | cons c s ih =>
    simp only [List.cons_append, lowerBetween, ih, List.append_assoc, List.reverse_cons,
      List.nil_append]

/-- A part of a text is lower-cased in its place. -/
theorem lowerBetween_infix_lower (before s after : List Char) :
    lowerBetween before.reverse after s <:+: lower (before ++ s ++ after) := by
  rw [lower_eq_lowerBetween, lowerBetween_append, lowerBetween_append, List.append_nil,
    List.append_nil]
  exact ⟨_, _, rfl⟩

/-- What is around a part does not change how long it is. -/
theorem length_lowerBetween (before after before' after' s : List Char) :
    (lowerBetween before after s).length = (lowerBetween before' after' s).length := by
  induction s generalizing before before' with
  | nil => rfl
  | cons c s ih =>
    rw [lowerBetween, lowerBetween, List.length_append, List.length_append,
      ih (c :: before) (c :: before')]
    split <;> rfl

/-- Only its capital sigmas can tell what is around a part. -/
theorem lowerBetween_eq_iff {before after before' after' s : List Char} :
    lowerBetween before after s = lowerBetween before' after' s ↔
      ∀ p q, s = p ++ 'Σ' :: q →
        endsWord (p.reverse ++ before) (q ++ after) =
          endsWord (p.reverse ++ before') (q ++ after') := by
  induction s generalizing before before' with
  | nil => simp [lowerBetween]
  | cons c s ih =>
    have hpiece : ((if c = 'Σ' then [if endsWord before (s ++ after) then 'ς' else 'σ']
          else lowerChar c) =
        if c = 'Σ' then [if endsWord before' (s ++ after') then 'ς' else 'σ'] else lowerChar c) ↔
        (c = 'Σ' → endsWord before (s ++ after) = endsWord before' (s ++ after')) := by
      by_cases hc : c = 'Σ'
      · cases endsWord before (s ++ after) <;> cases endsWord before' (s ++ after') <;> simp [hc]
      · simp [hc]
    have hsplit : lowerBetween before after (c :: s) = lowerBetween before' after' (c :: s) ↔
        (c = 'Σ' → endsWord before (s ++ after) = endsWord before' (s ++ after')) ∧
          lowerBetween (c :: before) after s = lowerBetween (c :: before') after' s := by
      rw [← hpiece, lowerBetween, lowerBetween]
      exact ⟨fun h => List.append_inj' h (length_lowerBetween _ _ _ _ s),
        fun h => congrArg₂ (· ++ ·) h.1 h.2⟩
    rw [hsplit, ih]
    constructor
    · rintro ⟨hhead, hrest⟩ p q hs
      cases p with
      | nil =>
        obtain ⟨rfl, rfl⟩ := List.cons.inj hs
        exact hhead rfl
      | cons d p =>
        obtain ⟨rfl, rfl⟩ := List.cons.inj hs
        simpa using hrest p q rfl
    · intro h
      refine ⟨fun hc => h [] s (by rw [hc, List.nil_append]), fun p q hs => ?_⟩
      simpa using h (c :: p) q (by rw [hs, List.cons_append])

theorem lowerBetween_eq_lower_iff {before s after : List Char} :
    lowerBetween before.reverse after s = lower s ↔ KeepsSigmas before s after := by
  rw [lower_eq_lowerBetween, lowerBetween_eq_iff]
  simp only [List.append_nil]
  rfl

/-! ### Exposed capital sigmas -/

/-- All characters of a text are passed over. -/
def IsOpen (s : List Char) : Prop := ∀ c ∈ s, caseIgnorable.contains c = true

/-- The form of a capital sigma between two texts, the first of them given backwards, may change
with what is around the two. -/
def IsExposed (before after : List Char) : Prop :=
  IsOpen before ∧ reachesCased after = false ∨ IsOpen after ∧ reachesCased before = true

/-- One of the capital sigmas of a text is exposed. -/
def Exposes (s : List Char) : Prop := ∃ p q, s = p ++ 'Σ' :: q ∧ IsExposed p.reverse q

theorem forall_split_iff {s : List Char} {c : Char} {P : List Char → List Char → Prop} :
    (∀ p q, s = p ++ c :: q → P p q) ↔
      ∀ i < s.length, s[i]? = some c → P (s.take i) (s.drop (i + 1)) := by
  constructor
  · intro h i hi hc
    refine h _ _ ?_
    rw [List.getElem?_eq_getElem hi, Option.some.injEq] at hc
    rw [← hc, ← List.drop_eq_getElem_cons hi, List.take_append_drop]
  · rintro h p q rfl
    simpa using h p.length (by simp) (by simp)

instance (before s after : List Char) : Decidable (KeepsSigmas before s after) :=
  decidable_of_iff _ forall_split_iff.symm

instance (s : List Char) : Decidable (IsOpen s) := List.decidableBAll _ s

instance (before after : List Char) : Decidable (IsExposed before after) :=
  inferInstanceAs (Decidable (IsOpen before ∧ _ ∨ IsOpen after ∧ _))

theorem not_exposes_iff {s : List Char} :
    ¬ Exposes s ↔ ∀ p q, s = p ++ 'Σ' :: q → ¬ IsExposed p.reverse q := by
  simp only [Exposes, not_exists, not_and]

instance (s : List Char) : Decidable (Exposes s) :=
  decidable_of_iff _ (not_iff_comm.mp (not_exposes_iff.trans forall_split_iff))

theorem reachesCased_append_of_isOpen {s : List Char} (h : IsOpen s) (t : List Char) :
    reachesCased (s ++ t) = reachesCased t := by
  rw [reachesCased, List.dropWhile_append, List.dropWhile_eq_nil_iff.mpr h]
  rfl

theorem reachesCased_of_isOpen {s : List Char} (h : IsOpen s) : reachesCased s = false := by
  have happend := reachesCased_append_of_isOpen h []
  rwa [List.append_nil] at happend

theorem reachesCased_append_of_not_isOpen {s : List Char} (h : ¬ IsOpen s) (t : List Char) :
    reachesCased (s ++ t) = reachesCased s := by
  have hne : s.dropWhile caseIgnorable.contains ≠ [] := mt List.dropWhile_eq_nil_iff.mp h
  rw [reachesCased, reachesCased, List.dropWhile_append, if_neg (mt List.isEmpty_iff.mp hne)]
  obtain ⟨c, rest, hrest⟩ := List.exists_cons_of_ne_nil hne
  rw [hrest]
  rfl

/-- What is around two texts is not seen from a capital sigma that is not exposed. -/
theorem endsWord_append_of_not_isExposed {p q : List Char} (h : ¬ IsExposed p q)
    (before after : List Char) : endsWord (p ++ before) (q ++ after) = endsWord p q := by
  rw [endsWord, endsWord]
  by_cases hp : IsOpen p
  · have hq : reachesCased q = true := by
      by_contra hq
      exact h (.inl ⟨hp, Bool.eq_false_iff.mpr hq⟩)
    have hclosed : ¬ IsOpen q := fun hopen =>
      Bool.false_ne_true ((reachesCased_of_isOpen hopen).symm.trans hq)
    rw [reachesCased_append_of_not_isOpen hclosed, hq, Bool.not_true, Bool.and_false,
      Bool.and_false]
  · rw [reachesCased_append_of_not_isOpen hp]
    by_cases hq : IsOpen q
    · have hcased : reachesCased p = false := by
        by_contra hcased
        exact h (.inr ⟨hq, (Bool.not_eq_false _).mp hcased⟩)
      rw [hcased, Bool.false_and, Bool.false_and]
    · rw [reachesCased_append_of_not_isOpen hq]

/-- **Where no capital sigma is exposed, all keep their form.** -/
theorem keepsSigmas_of_not_exposes {s : List Char} (h : ¬ Exposes s) (before after : List Char) :
    KeepsSigmas before s after :=
  fun p q hs => endsWord_append_of_not_isExposed (fun hexposed => h ⟨p, q, hs, hexposed⟩) _ _

/-- A letter on one of its sides changes an exposed capital sigma. -/
theorem exists_lowerBetween_ne {s : List Char} (h : Exposes s) {letter : Char}
    (hletter : reachesCased [letter] = true) :
    lowerBetween [letter] [] s ≠ lower s ∨ lowerBetween [] [letter] s ≠ lower s := by
  obtain ⟨p, q, rfl, ⟨hopen, hcased⟩ | ⟨hopen, hcased⟩⟩ := h
  · refine .inl fun heq => ?_
    rw [lower_eq_lowerBetween, lowerBetween_eq_iff] at heq
    have hsame := heq p q rfl
    simp only [endsWord, List.append_nil, reachesCased_append_of_isOpen hopen, hletter,
      reachesCased_of_isOpen hopen, hcased] at hsame
    exact absurd hsame (by decide)
  · refine .inr fun heq => ?_
    rw [lower_eq_lowerBetween, lowerBetween_eq_iff] at heq
    have hsame := heq p q rfl
    simp only [endsWord, List.append_nil, reachesCased_append_of_isOpen hopen, hletter,
      reachesCased_of_isOpen hopen, hcased] at hsame
    exact absurd hsame (by decide)

/-! ### Texts that are found -/

theorem lower_ne_nil_of_exposes {s : List Char} (h : Exposes s) : lower s ≠ [] := by
  obtain ⟨p, q, rfl, -⟩ := h
  rw [lower_eq_lowerBetween, lowerBetween_append, lowerBetween]
  simp

/-- Some letter is not at either end of a text in lower case. -/
theorem exists_letter (s : List Char) : ∃ letter, reachesCased [letter] = true ∧
    ∃ c, lowerChar letter = [c] ∧ letter ≠ 'Σ' ∧ s.head? ≠ some c ∧ s.getLast? ≠ some c := by
  have hletter : ∀ letter ∈ ['A', 'B', 'C'],
      reachesCased [letter] = true ∧ lowerChar letter = [letter.toLower] ∧ letter ≠ 'Σ' := by
    refine List.forall_mem_cons.mpr ⟨?_, List.forall_mem_cons.mpr ⟨?_,
      List.forall_mem_singleton.mpr ?_⟩⟩ <;> decide +kernel
  by_contra h
  have hends : ∀ letter ∈ ['A', 'B', 'C'],
      s.head? = some letter.toLower ∨ s.getLast? = some letter.toLower := by
    intro letter hmem
    obtain ⟨hcased, hlower, hsigma⟩ := hletter letter hmem
    by_contra hnot
    rw [not_or] at hnot
    exact h ⟨letter, hcased, _, hlower, hsigma, hnot⟩
  have ha := hends 'A' (by decide)
  have hb := hends 'B' (by decide)
  have hc := hends 'C' (by decide)
  simp only [Char.reduceToLower] at ha hb hc
  -- A text has two ends, and there are three letters.
  rcases ha with ha | ha <;> rcases hb with hb | hb <;> rcases hc with hc | hc <;> simp_all

/-- **A text is found in lower case wherever it is if and only if it exposes no capital sigma.** -/
theorem forall_infix_lower_iff (s : List Char) :
    (∀ t, s <:+: t → lower s <:+: lower t) ↔ ¬ Exposes s := by
  constructor
  · intro hfound hexposes
    obtain ⟨letter, hcased, c, hlower, hsigma, hhead, hlast⟩ := exists_letter (lower s)
    have hletter : ∀ before after, lowerBetween before after [letter] = [c] := by
      intro before after
      rw [lowerBetween, if_neg hsigma, hlower]
      rfl
    have hnil := lower_ne_nil_of_exposes hexposes
    have hlength : ∀ before after, (lowerBetween before after s).length = (lower s).length :=
      fun _ _ => lower_eq_lowerBetween s ▸ length_lowerBetween _ _ _ _ s
    rcases exists_lowerBetween_ne hexposes hcased with hne | hne
    · have hplace := hfound (letter :: s) (List.suffix_cons letter s).isInfix
      have hwhole : lower (letter :: s) = c :: lowerBetween [letter] [] s := by
        rw [lower_eq_lowerBetween]
        exact (lowerBetween_append [] [] [letter] s).trans (congrArg (· ++ _) (hletter _ _))
      rw [hwhole, List.infix_cons_iff] at hplace
      rcases hplace with hprefix | hplace
      · obtain ⟨d, rest, hcons⟩ := List.exists_cons_of_ne_nil hnil
        rw [hcons, List.cons_prefix_cons] at hprefix
        exact hhead (by rw [hcons, hprefix.1, List.head?_cons])
      · exact hne (hplace.eq_of_length (hlength _ _).symm).symm
    · have hplace := hfound (s ++ [letter]) (List.prefix_append s [letter]).isInfix
      have hwhole : lower (s ++ [letter]) = lowerBetween [] [letter] s ++ [c] := by
        rw [lower_eq_lowerBetween, lowerBetween_append, hletter]
        rfl
      rw [hwhole, List.infix_concat_iff] at hplace
      rcases hplace with hsuffix | hplace
      · refine hlast ?_
        obtain ⟨rest, d, hconcat⟩ := (List.eq_nil_or_concat' (lower s)).resolve_left hnil
        obtain ⟨more, hmore⟩ := hsuffix
        have hend := congrArg List.getLast? hmore
        rw [hconcat, ← List.append_assoc, List.getLast?_concat, List.getLast?_concat] at hend
        rw [hconcat, List.getLast?_concat, hend]
      · exact hne (hplace.eq_of_length (hlength _ _).symm).symm
  · rintro hnot _ ⟨before, after, rfl⟩
    have hkeeps := lowerBetween_eq_lower_iff.mpr (keepsSigmas_of_not_exposes hnot before after)
    exact hkeeps ▸ lowerBetween_infix_lower before s after

end Text

end PlatformProxy
