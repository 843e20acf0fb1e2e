import PlatformProxy.Proofs.Yaml.Entries
import PlatformProxy.Proofs.Yaml.Literal
import PlatformProxy.Proofs.Yaml.Quoted

/-!
# Texts as values

The form in which a text is written is chosen so that the scanner reads it whole, whichever the
form is. Only two line separators are not safe in single quotes and in literal blocks.

## Main definitions

* `Yaml.KeepsLines` — a text without line separators where they would not be kept
* `Yaml.textToken` — the token of a text

## Main results

* `Yaml.exists_of_formOf_plain` — a text written plain is one that is read whole
* `Yaml.Scan.exists_text` — a text behind a colon or a dash is one token
-/

namespace PlatformProxy

namespace Yaml

/-! ### What a form says about a text -/

theorem endsWord_of_isGap {c : Option Char} (h : isGap .modern c = true) : endsWord c = true := by
  cases c with
  | none => rfl
  | some c =>
    simp only [isGap, isBlank, isBreak, endsWord, endsLine, Bool.or_eq_true, Bool.and_eq_true,
      decide_eq_true_eq, reduceCtorEq, false_and, or_false] at h ⊢
    grind

theorem endsWord_of_isSpace {c : Char} (h : isSpace c = true) : endsWord (some c) = true := by
  rw [of_decide_eq_true h]
  rfl

theorem colons_cons {c : Char} {cs : List Char} (hword : c = ':' → endsWord cs.head? = false)
    (hcolons : hasNeighbours (· = ':') isSpace cs = false) (hlast : cs.getLast? ≠ some ':') :
    hasNeighbours (· = ':') isSpace (c :: cs) = false ∧ (c :: cs).getLast? ≠ some ':' := by
  cases cs with
  | nil => exact ⟨rfl, fun hc => Bool.eq_false_iff.mp (hword (Option.some.inj hc)) rfl⟩
  | cons d cs =>
    refine ⟨?_, by rwa [List.getLast?_cons_cons]⟩
    rw [hasNeighbours, hcolons, Bool.or_false, Bool.and_eq_false_imp]
    exact fun hc => Bool.eq_false_iff.mpr fun hd =>
      Bool.eq_false_iff.mp (hword (of_decide_eq_true hc)) (endsWord_of_isSpace hd)

/-- Without indicators behind its first character a text has no word that begins with a number sign
there, and none that ends with a colon. -/
theorem of_holdsIndicator {a : Char} {cs : List Char} (h : holdsIndicator a cs = false) :
    hasNeighbours isSpace (· = '#') (a :: cs) = false ∧
      hasNeighbours (· = ':') isSpace cs = false ∧ cs.getLast? ≠ some ':' := by
  induction cs generalizing a with
  | nil => exact ⟨rfl, rfl, nofun⟩
  | cons b cs ih =>
    simp only [holdsIndicator, Bool.or_eq_false_iff] at h
    obtain ⟨⟨hcolon, hnumber⟩, hrest⟩ := h
    obtain ⟨hnumbers, hcolons, hlast⟩ := ih hrest
    rw [Bool.and_eq_false_imp] at hcolon hnumber
    refine ⟨?_, ?_⟩
    · rw [hasNeighbours, hnumbers, Bool.or_false, Bool.and_comm, Bool.and_eq_false_imp]
      exact fun hb => Bool.eq_false_iff.mpr fun ha =>
        Bool.eq_false_iff.mp (hnumber hb) (endsWord_of_isSpace ha)
    · exact colons_cons (fun hb => hcolon (decide_eq_true hb)) hcolons hlast

/-- What `beginsWithIndicator` and `holdsIndicator` say together. -/
theorem of_hasIndicator {c : Char} {cs : List Char}
    (h : (Traits.of (c :: cs)).hasIndicator = false) :
    c ∉ leadingIndicators ∧
      (c = '?' ∨ c = ':' ∨ c = '-' → isGap .modern cs.head? = false) ∧
      hasNeighbours isSpace (· = '#') (c :: cs) = false ∧
      hasNeighbours (· = ':') isSpace (c :: cs) = false ∧ (c :: cs).getLast? ≠ some ':' := by
  simp only [Traits.of, beginsWithIndicator, Bool.or_eq_false_iff] at h
  obtain ⟨⟨⟨⟨hleading, hword⟩, -⟩, -⟩, hrest⟩ := h
  obtain ⟨hnumbers, hcolons, hlast⟩ := of_holdsIndicator hrest
  rw [Bool.and_eq_false_imp] at hword
  have hgap : c = '?' ∨ c = ':' ∨ c = '-' → endsWord cs.head? = false := by
    intro hc
    apply hword
    simpa only [Bool.or_eq_true, decide_eq_true_eq, or_assoc] using hc
  refine ⟨?_, ?_, hnumbers, colons_cons (fun hc => hgap (.inr (.inl hc))) hcolons hlast⟩
  · rwa [List.contains_eq_mem, decide_eq_false_iff_not] at hleading
  · exact fun hc => Bool.eq_false_iff.mpr fun h =>
      Bool.eq_false_iff.mp (hgap hc) (endsWord_of_isGap h)

section Form

variable {s : String}

theorem of_isTame {cs : List Char} (h : (Traits.of cs).isTame = true) :
    ∀ c ∈ cs, isPrintable c = true := by
  simp only [Traits.isTame, Traits.of, Bool.and_eq_true, Bool.not_eq_true', List.any_eq_false,
    Bool.not_eq_false] at h
  exact h.1

theorem of_formOf_plain (h : formOf s = .plain) :
    readsOtherwise s = false ∧ (Traits.of s.toList).allowsPlain = true := by
  simp only [formOf] at h
  split at h
  · split at h <;> cases h
  · split at h
    · rename_i hplain
      simpa only [Bool.and_eq_true, Bool.not_eq_true'] using hplain
    · split at h <;> cases h

/-- A text that is written plain is not empty, and it is read whole. -/
theorem exists_of_formOf_plain (h : formOf s = .plain) :
    ∃ c cs, s.toList = c :: cs ∧ IsPlain (c :: cs) ∧ c ≠ ' ' ∧ c ∉ leadingIndicators ∧
      (c = '?' ∨ c = ':' ∨ c = '-' → isGap .modern cs.head? = false) := by
  obtain ⟨hreads, hplain⟩ := of_formOf_plain h
  cases hs : s.toList with
  | nil =>
    rw [String.toList_eq_nil_iff.mp hs] at hreads
    exact absurd hreads (by decide)
  | cons c cs =>
    rw [hs] at hplain
    simp only [Traits.allowsPlain, Bool.and_eq_true, Bool.not_eq_true'] at hplain
    obtain ⟨⟨⟨⟨htame, hindicator⟩, hend⟩, hloose⟩, -⟩ := hplain
    obtain ⟨hleading, hgap, hnumbers, hcolons, hlast⟩ := of_hasIndicator hindicator
    simp only [Traits.of, Bool.or_eq_false_iff] at hend hloose
    refine ⟨c, cs, rfl, ⟨fun d hd => ?_, hcolons, hnumbers, hlast, ?_⟩, ?_, hleading, hgap⟩
    · rw [List.any_eq_false] at hend
      exact Decidable.or_iff_not_imp_left.mpr fun hspace =>
        Scan.isGap_of_isPrintable (of_isTame htame d hd) (Bool.eq_false_iff.mpr (hend d hd)) hspace
    · intro hspace
      rw [hspace] at hloose
      exact absurd hloose.2 (by decide)
    · rintro rfl
      exact Bool.eq_false_iff.mp hloose.1 rfl

/-- A text in single quotes holds nothing unprintable, and no line feed. -/
theorem of_formOf_single (h : formOf s = .single) :
    ∀ c ∈ s.toList, isPrintable c = true ∧ c ≠ '\n' := by
  simp only [formOf] at h
  split at h
  · split at h <;> cases h
  · rename_i hfeed
    rw [Bool.not_eq_true, List.contains_eq_mem, decide_eq_false_iff_not] at hfeed
    split at h
    · cases h
    · split at h
      · rename_i hsingle
        rw [Traits.allowsSingle, Bool.and_eq_true] at hsingle
        exact fun c hc => ⟨of_isTame hsingle.1 c hc, fun heq => hfeed (heq ▸ hc)⟩
      · cases h

theorem of_formOf_literal (h : formOf s = .literal) :
    s.toList ≠ [] ∧ ∀ c ∈ s.toList, isPrintable c = true := by
  simp only [formOf] at h
  split at h
  · rename_i hfeed
    rw [List.contains_eq_mem, decide_eq_true_eq] at hfeed
    split at h
    · rename_i hblock
      rw [Traits.allowsBlock, Bool.and_eq_true] at hblock
      exact ⟨List.ne_nil_of_mem hfeed, of_isTame hblock.1⟩
    · cases h
  · split at h
    · cases h
    · split at h <;> cases h

end Form

/-- Where a text is kept between single quotes or as a literal block, it has no line separators. -/
def KeepsLines (s : String) : Prop :=
  formOf s = .single ∨ formOf s = .literal → '\u2028' ∉ s.toList ∧ '\u2029' ∉ s.toList

instance : DecidablePred KeepsLines := fun s =>
  inferInstanceAs (Decidable (formOf s = .single ∨ formOf s = .literal →
    '\u2028' ∉ s.toList ∧ '\u2029' ∉ s.toList))

/-- The only line ends among printable characters are the line feed and the two separators. -/
theorem endsLine_of_isPrintable {c : Char} (h : isPrintable c = true) (hsep : c ≠ '\u2028')
    (hpar : c ≠ '\u2029') : endsLine c = decide (c = '\n') := by
  have hreturn : c ≠ '\r' := by
    rintro rfl
    exact absurd h (by decide)
  have hnext : c ≠ '\u0085' := by
    rintro rfl
    exact absurd h (by decide)
  simp only [endsLine, hreturn, hnext, hsep, hpar, decide_false, Bool.or_false]

/-- The style in which a text is written. -/
def Form.style : Form → Style
  | .plain => .plain
  | .single => .singleQuoted
  | .double => .doubleQuoted
  | .literal => .literal

/-- The token of a text. -/
def textToken (s : String) : Token := .scalar s.toList (formOf s).style

namespace Scan

variable {s : Cursor} {column : Nat} {cols : List Nat} {ts : List Token} {text : List Char}

/-- Behind the beginning of a token nothing of the line is left. -/
theorem exists_of_fetch {c : Char} {rest : List Char} {t : Token}
    (h : s.Awaits cols ts (' ' :: c :: rest)) (hdense : Dense (c :: rest))
    (hlength : text.length ≤ rest.length)
    (hfetch : ∀ s', s'.Ready cols ts (c :: rest) → innermost cols + 1 < s'.mark.column →
      ∃ s'', (fetchFrom c).run s' = .ok ((), s'') ∧ s''.Between cols (t :: ts) text) :
    ∃ s', Scans s s' ∧ s'.Between cols (t :: ts) text := by
  obtain ⟨s₁, hnext, hready, hcolumn⟩ := exists_next_value h hdense
  obtain ⟨s₂, hfetch, hbetween⟩ := hfetch s₁ hready hcolumn
  rw [hfetch] at hnext
  refine ⟨s₂, .single hnext ?_, hbetween⟩
  have hrest := hbetween.length_rest_le
  rw [h.rest, List.length_cons, List.length_cons]
  omega

theorem exists_plain {cs : List Char} {c : Char} (hplain : IsPlain (c :: cs)) (hspace : c ≠ ' ')
    (hleading : c ∉ leadingIndicators)
    (hgap : c = '?' ∨ c = ':' ∨ c = '-' → isGap .modern cs.head? = false)
    (h : s.Awaits (column :: cols) ts (' ' :: c :: cs ++ '\n' :: text))
    (htext : Cursor.Resumes column text) :
    ∃ s', Scans s s' ∧ s'.Between (column :: cols) (.scalar (c :: cs) .plain :: ts) text := by
  have hnumber : c ≠ '#' := by
    rintro rfl
    exact hleading (by decide)
  have hdense : Dense (c :: (cs ++ '\n' :: text)) := by
    have hgap := (hplain.chars c List.mem_cons_self).resolve_left hspace
    simp only [isGap, isBlank, isBreak, Bool.or_eq_false_iff, decide_eq_false_iff_not] at hgap
    exact dense_cons.mpr ⟨hspace, hgap.1.2, hgap.2.1.1, hgap.2.1.2, hnumber⟩
  have hnext : c = '?' ∨ c = ':' ∨ c = '-' → isGap .modern (cs ++ '\n' :: text).head? = false := by
    intro hc
    cases cs with
    | nil => exact absurd (hgap hc) (by decide)
    | cons d cs => exact hgap hc
  refine exists_of_fetch h hdense (by simp; omega) fun s' hready hcolumn => ?_
  rw [run_fetchFrom_plain hready.dialect hready.flowLevel hready.rest hleading hnext]
  exact exists_fetchPlain hready hplain (List.cons_ne_nil c cs)
    (fun hc => hspace (Option.some.inj hc)) (fun hc => hnumber (Option.some.inj hc))
    (by have : innermost (column :: cols) = column := rfl; omega) htext

theorem run_fetchFrom_quote (double : Bool) :
    (fetchFrom (quote double)).run s = (fetchQuoted double).run s := by
  cases double <;>
  simp only [fetchFrom, quote, StateT.run_bind, run_get, run_gapAt, ok_bind, Char.reduceEq,
    Bool.false_eq_true, false_and, or_self, if_false, if_true]

theorem exists_quoted (double : Bool) {enc : Char → List Char} {cs : List Char}
    (henc : ∀ c ∈ cs, c ≠ ' ' → Spells double c (enc c)) (hspace : enc ' ' = [' '])
    (h : s.Awaits (column :: cols) ts
      (' ' :: quote double :: (cs.flatMap enc ++ quote double :: '\n' :: text))) :
    ∃ s', Scans s s' ∧ s'.Between (column :: cols)
      (.scalar cs (if double then .doubleQuoted else .singleQuoted) :: ts) text := by
  have hdense : Dense (quote double :: (cs.flatMap enc ++ quote double :: '\n' :: text)) :=
    dense_cons.mpr (by cases double <;> decide)
  refine exists_of_fetch h hdense (by simp; omega) fun s' hready hcolumn => ?_
  rw [run_fetchFrom_quote]
  exact exists_fetchQuoted hready henc hspace
    (by have : innermost (column :: cols) = column := rfl; omega)

theorem run_fetchFrom_bar (hflow : s.flowLevel = 0) :
    (fetchFrom '|').run s = (fetchBlockScalar false).run s := by
  simp only [fetchFrom, StateT.run_bind, run_get, run_gapAt, ok_bind, Char.reduceEq, hflow,
    false_and, if_false, true_or, true_and, if_true, decide_false]

/-- A text behind a colon or a dash. -/
theorem exists_text {value : String} (hvalue : KeepsLines value)
    (h : s.Awaits (column :: cols) ts (' ' :: textChars column value ++ text))
    (htext : Cursor.Resumes column text) :
    ∃ s', Scans s s' ∧ s'.Between (column :: cols) (textToken value :: ts) text := by
  cases hform : formOf value with
  | plain =>
    obtain ⟨c, cs, hvalue, hplain, hspace, hleading, hgap⟩ := exists_of_formOf_plain hform
    simp only [textChars, hform, hvalue, List.append_assoc, List.cons_append] at h
    rw [textToken, hform, hvalue]
    exact exists_plain hplain hspace hleading hgap h htext
  | single =>
    have hlines := hvalue (.inl hform)
    have hends : ∀ c ∈ value.toList, endsLine c = false := by
      intro c hc
      obtain ⟨hprintable, hfeed⟩ := of_formOf_single hform c hc
      rw [endsLine_of_isPrintable hprintable (fun heq => hlines.1 (heq ▸ hc))
        (fun heq => hlines.2 (heq ▸ hc)), decide_eq_false hfeed]
    simp only [textChars, hform, singleQuotedChars_eq hends, List.append_assoc,
      List.cons_append, List.nil_append] at h
    rw [textToken, hform]
    exact exists_quoted false (fun c hc hspace => spells_singleQuotedChar
      (isGap_of_isPrintable (of_formOf_single hform c hc).1 (hends c hc) hspace)) rfl h
  | double =>
    simp only [textChars, hform, List.append_assoc, List.cons_append, List.nil_append] at h
    rw [textToken, hform]
    exact exists_quoted true (fun c _ hspace => spells_doubleQuotedChar hspace) rfl h
  | literal =>
    have hlines := hvalue (.inr hform)
    obtain ⟨hne, hprintable⟩ := of_formOf_literal hform
    have hends : ∀ c ∈ value.toList, endsLine c = true → c = '\n' := by
      intro c hc hend
      rw [endsLine_of_isPrintable (hprintable c hc) (fun heq => hlines.1 (heq ▸ hc))
        (fun heq => hlines.2 (heq ▸ hc))] at hend
      exact of_decide_eq_true hend
    simp only [textChars, hform, List.append_assoc, List.cons_append] at h
    rw [textToken, hform]
    refine exists_of_fetch h (dense_cons.mpr (by decide)) (by simp; omega)
      fun s' hready hcolumn => ?_
    rw [run_fetchFrom_bar hready.flowLevel]
    refine exists_fetchLiteral ?_ hne hends htext
    simpa only [List.append_assoc] using hready

end Scan

end Yaml

end PlatformProxy
