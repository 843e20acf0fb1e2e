import Mathlib.Data.List.Basic
import PlatformProxy.Proofs.Yaml.Blocks
import PlatformProxy.Yaml.Writer

/-!
# Reading plain text

A plain scalar is read word by word. A word goes on up to a blank, the end of the line or a colon
in front of these, and the gap behind it belongs to the scalar only if another word follows in it.

## Main definitions

* `Yaml.IsPlain` — texts that are read whole when they are written plain

## Main results

* `Yaml.Scan.run_readPlain_key` — a key is read up to its colon
* `Yaml.Scan.run_readPlain` — a text is read up to the end of its line, and the blanks in front of
  the next line with it
-/

namespace PlatformProxy

namespace Yaml

/-! ### Words and blanks -/

/-- A text is one word, or a word, some blanks and another text. -/
theorem cases_words (cs : List Char) :
    (∀ c ∈ cs, c ≠ ' ') ∨ ∃ w n rest, cs = w ++ (List.replicate (n + 1) ' ' ++ rest) ∧
      (∀ c ∈ w, c ≠ ' ') ∧ rest.head? ≠ some ' ' := by
  induction cs with
  | nil => exact .inl fun _ hc => nomatch hc
  | cons c cs ih =>
    by_cases hc : c = ' '
    · refine .inr ⟨[], indentation cs, contents cs, ?_, fun _ hc => (nomatch hc),
        head?_contents_ne cs⟩
      rw [List.nil_append, List.replicate_succ, List.cons_append, blanks_append_contents, hc]
    · rcases ih with hword | ⟨w, n, rest, rfl, hw, hrest⟩
      · exact .inl (List.forall_mem_cons.mpr ⟨hc, hword⟩)
      · exact .inr ⟨c :: w, n, rest, rfl, List.forall_mem_cons.mpr ⟨hc, hw⟩, hrest⟩

/-! ### Neighbours -/

theorem hasNeighbours_of_split {p q : Char → Bool} {a b : Char} (ha : p a = true) (hb : q b = true)
    (before after : List Char) : hasNeighbours p q (before ++ a :: b :: after) = true := by
  induction before with
  | nil => simp only [List.nil_append, hasNeighbours, ha, hb, Bool.and_self, Bool.true_or]
  | cons c before ih =>
    cases before with
    | nil =>
      rw [List.nil_append] at ih
      rw [List.singleton_append, hasNeighbours, ih, Bool.or_true]
    | cons d before =>
      rw [List.cons_append] at ih
      rw [List.cons_append, List.cons_append, hasNeighbours, ih, Bool.or_true]

theorem hasNeighbours_append_right {p q : Char → Bool} {a b : List Char}
    (h : hasNeighbours p q (a ++ b) = false) : hasNeighbours p q b = false := by
  induction a with
  | nil => exact h
  | cons c a ih =>
    refine ih ?_
    cases hab : a ++ b with
    | nil => rfl
    | cons d after =>
      rw [List.cons_append, hab, hasNeighbours, Bool.or_eq_false_iff] at h
      exact h.2

theorem hasNeighbours_of_forall {p q : Char → Bool} {cs : List Char} (h : ∀ c ∈ cs, q c = false) :
    hasNeighbours p q cs = false := by
  induction cs with
  | nil => rfl
  | cons a cs ih =>
    obtain ⟨-, hcs⟩ := List.forall_mem_cons.mp h
    cases cs with
    | nil => rfl
    | cons b cs => rw [hasNeighbours, hcs b List.mem_cons_self, Bool.and_false, ih hcs]; rfl

/-- A word that can be the key of a mapping. -/
structure IsKey (w : List Char) : Prop where
  ne_nil : w ≠ []
  chars : ∀ c ∈ w, isWordChar c = true
  first : ∀ c ∈ w.head?, c.isAlphanum = true
  length_le : w.length ≤ 1024

theorem ne_of_isAlphanum {c d : Char} (h : c.isAlphanum = true) (hd : d.isAlphanum = false) :
    c ≠ d := by
  rintro rfl
  exact absurd h (hd ▸ Bool.false_ne_true)

theorem dense_of_isAlphanum {c : Char} (h : c.isAlphanum = true) (rest : List Char) :
    Dense (c :: rest) :=
  dense_cons.mpr ⟨ne_of_isAlphanum h rfl, ne_of_isAlphanum h rfl, ne_of_isAlphanum h rfl,
    ne_of_isAlphanum h rfl, ne_of_isAlphanum h rfl⟩

theorem not_mem_leadingIndicators {c : Char} (h : c.isAlphanum = true) :
    c ∉ leadingIndicators := by
  have hindicators : leadingIndicators.all (fun d => !d.isAlphanum) = true := by decide
  exact fun hc => ne_of_isAlphanum h (by simpa using List.all_eq_true.mp hindicators c hc) rfl

theorem not_separator_of_isAlphanum {c : Char} (h : c.isAlphanum = true) :
    ¬ (c = '?' ∨ c = ':' ∨ c = '-') := by
  rintro (hc | hc | hc)
  · exact ne_of_isAlphanum h (show Char.isAlphanum '?' = false by decide) hc
  · exact ne_of_isAlphanum h (show Char.isAlphanum ':' = false by decide) hc
  · exact ne_of_isAlphanum h (show Char.isAlphanum '-' = false by decide) hc

theorem IsKey.exists_cons {w : List Char} (h : IsKey w) :
    ∃ c rest, w = c :: rest ∧ c.isAlphanum = true := by
  obtain ⟨c, rest, rfl⟩ := List.exists_cons_of_ne_nil h.ne_nil
  exact ⟨c, rest, rfl, h.first c rfl⟩

theorem isGap_of_isWordChar {c : Char} (h : isWordChar c = true) :
    isGap .modern (some c) = false := by
  have hne : ∀ d : Char, isWordChar d = false → c ≠ d := by
    rintro d hd rfl
    exact absurd h (by rw [hd]; exact Bool.false_ne_true)
  simp only [isGap, isBlank, isBreak, hne ' ' (by decide), hne '\t' (by decide),
    hne '\n' (by decide), hne '\r' (by decide), decide_false, Bool.or_self, Bool.false_and,
    reduceCtorEq]

/-- A text that is read whole when it is written plain: nothing in it ends the scalar. -/
structure IsPlain (cs : List Char) : Prop where
  chars : ∀ c ∈ cs, c = ' ' ∨ isGap .modern (some c) = false
  colon : hasNeighbours (· = ':') isSpace cs = false
  number : hasNeighbours isSpace (· = '#') cs = false
  last_ne_colon : cs.getLast? ≠ some ':'
  last_ne_space : cs.getLast? ≠ some ' '

/-- A word without blanks, colons and number signs is read whole. -/
theorem IsKey.isPlain {w : List Char} (h : IsKey w) : IsPlain w := by
  have hne : ∀ d : Char, isWordChar d = false → ∀ c ∈ w, c ≠ d := by
    rintro d hd c hc rfl
    exact absurd (h.chars c hc) (hd ▸ Bool.false_ne_true)
  have hlast : ∀ d : Char, isWordChar d = false → w.getLast? ≠ some d :=
    fun d hd heq => hne d hd d (List.mem_of_getLast? heq) rfl
  exact {
    chars := fun c hc => .inr (isGap_of_isWordChar (h.chars c hc))
    colon := hasNeighbours_of_forall fun c hc => decide_eq_false (hne ' ' (by decide) c hc)
    number := hasNeighbours_of_forall fun c hc => decide_eq_false (hne '#' (by decide) c hc)
    last_ne_colon := hlast ':' (by decide)
    last_ne_space := hlast ' ' (by decide) }

namespace IsPlain

variable {cs w rest : List Char} {n : Nat}

theorem right (h : IsPlain (w ++ rest)) (hne : rest ≠ []) : IsPlain rest where
  chars := fun c hc => h.chars c (List.mem_append_right w hc)
  colon := hasNeighbours_append_right h.colon
  number := hasNeighbours_append_right h.number
  last_ne_colon := by
    have hlast := h.last_ne_colon
    rwa [List.getLast?_append_of_ne_nil w hne] at hlast
  last_ne_space := by
    have hlast := h.last_ne_space
    rwa [List.getLast?_append_of_ne_nil w hne] at hlast

/-- A word in front of blanks does not end with a colon. -/
theorem getLast?_word (h : IsPlain (w ++ (List.replicate (n + 1) ' ' ++ rest))) :
    w.getLast? ≠ some ':' := by
  intro hlast
  obtain ⟨before, rfl⟩ := List.getLast?_eq_some_iff.mp hlast
  have hcolon := h.colon
  rw [List.append_assoc, List.replicate_succ, List.singleton_append, List.cons_append,
    hasNeighbours_of_split rfl rfl] at hcolon
  exact Bool.false_ne_true hcolon.symm

/-- The text behind blanks does not begin with a number sign. -/
theorem head?_behind (h : IsPlain (w ++ (List.replicate (n + 1) ' ' ++ rest))) :
    rest.head? ≠ some '#' := by
  intro hhead
  obtain ⟨after, rfl⟩ := List.head?_eq_some_iff.mp hhead
  have hnumber := h.number
  rw [List.replicate_succ', List.append_assoc, ← List.append_assoc, List.singleton_append,
    hasNeighbours_of_split rfl rfl] at hnumber
  exact Bool.false_ne_true hnumber.symm

theorem behind_ne_nil (h : IsPlain (w ++ (List.replicate (n + 1) ' ' ++ rest))) : rest ≠ [] := by
  rintro rfl
  apply h.last_ne_space
  rw [List.append_nil, List.replicate_succ', ← List.append_assoc, List.getLast?_concat]

end IsPlain

namespace Scan

variable {s : Cursor} {text : List Char}

/-! ### Gaps -/

/-- Blanks belong to a gap until its first line end. -/
def Gap.widen (g : Gap) (n : Nat) : Gap :=
  if g.isBroken then g else { g with blanks := g.blanks ++ List.replicate n ' ' }

theorem Gap.widen_zero (g : Gap) : g.widen 0 = g := by
  rw [widen]
  split
  · rfl
  · rw [List.replicate_zero, List.append_nil]

theorem Gap.widen_widen (g : Gap) (n m : Nat) : (g.widen n).widen m = g.widen (n + m) := by
  by_cases h : g.isBroken
  · simp only [widen, h, if_true]
  · simp only [widen, h, Bool.false_eq_true, if_false, List.append_assoc,
      List.replicate_append_replicate]

theorem run_readGap_of_head {g : Gap} {indent : Int} {fuel : Nat} (hdialect : s.dialect = .modern)
    (hrest : ∀ c ∈ s.rest.head?, isGap .modern (some c) = false) :
    (readGap indent fuel g).run s = .ok (g, s) := by
  cases fuel with
  | zero => rfl
  | succ fuel =>
    simp only [readGap, StateT.run_bind, run_get, ok_bind]
    split
    · rfl
    · rename_i c rest heq
      rw [heq] at hrest
      have hc := hrest c rfl
      simp only [isGap, Bool.or_eq_false_iff] at hc
      simp only [hc, hdialect, Bool.false_eq_true, if_false, run_pure]

theorem run_readGap_blanks (g : Gap) (indent : Int) {fuel n : Nat} {rest : List Char}
    (hdialect : s.dialect = .modern) (hfuel : n < fuel)
    (hrest : s.rest = List.replicate n ' ' ++ rest)
    (hhead : ∀ c ∈ rest.head?, isGap .modern (some c) = false) :
    (readGap indent fuel g).run s = .ok (g.widen n, s.advance n) := by
  induction n generalizing s g fuel with
  | zero =>
    rw [Cursor.advance_zero, Gap.widen_zero]
    exact run_readGap_of_head hdialect (by rw [hrest]; exact hhead)
  | succ n ih =>
    cases fuel with
    | zero => exact absurd hfuel (Nat.not_lt_zero _)
    | succ fuel =>
      have hih := ih (s := s.advance 1) (g := g.widen 1) hdialect (Nat.lt_of_succ_lt_succ hfuel)
        (Cursor.rest_advance_one hrest)
      rw [Cursor.advance_advance, Gap.widen_widen, Nat.add_comm 1] at hih
      rw [List.replicate_succ, List.cons_append] at hrest
      simp only [readGap, StateT.run_bind, run_get, ok_bind, hrest, isBlank, decide_true,
        Char.reduceEq, decide_false, Bool.or_false, if_true, Bool.and_false, Bool.false_and,
        Bool.false_eq_true, if_false, run_skip]
      exact hih

/-- The end of a line and the blanks in front of the next one. -/
theorem run_readGap_line (g : Gap) (indent : Int) {fuel : Nat} (hdialect : s.dialect = .modern)
    (hg : g.isBroken = false) (hfuel : text.length + 1 < fuel) (hrest : s.rest = '\n' :: text)
    (htext : ∀ c ∈ (contents text).head?, isGap .modern (some c) = false) :
    (readGap indent fuel g).run s =
      .ok ({ g with blanks := [], firstBreak := ['\n'], isBroken := true },
        s.breakLine.advance (indentation text)) := by
  cases fuel with
  | zero => omega
  | succ fuel =>
    have hlength := indentation_le_length text
    have hblanks := run_readGap_blanks (s := s.breakLine)
      { g with blanks := [], firstBreak := ['\n'], isBroken := true } indent
      hdialect (show indentation text < fuel by omega)
      (by rw [Cursor.rest_breakLine hrest, blanks_append_contents]) htext
    simp only [readGap, StateT.run_bind, run_get, ok_bind, hrest, isBlank, Char.reduceEq,
      decide_false, Bool.or_self, Bool.false_eq_true, if_false, isBreak, decide_true, Bool.true_or,
      if_true, hg, run_readBreak s hrest, hblanks, Gap.widen]

/-! ### Words -/

theorem run_endsPlain_of_colon {rest : List Char} (hrest : s.rest = ':' :: rest)
    (hgap : isGap s.dialect rest.head? = true) : endsPlain.run s = .ok (true, s) := by
  simp only [endsPlain, StateT.run_bind, run_get, ok_bind, hrest, if_true, hgap, run_pure]

theorem run_endsPlain_of_ne {c : Char} {rest : List Char} (hflow : s.flowLevel = 0)
    (hrest : s.rest = c :: rest) (hcolon : c = ':' → isGap s.dialect rest.head? = false) :
    endsPlain.run s = .ok (false, s) := by
  simp only [endsPlain, StateT.run_bind, run_get, ok_bind, hrest, hflow, Nat.lt_irrefl,
    decide_false, Bool.false_and, Bool.false_eq_true, if_false]
  split
  · rename_i hc
    simp only [hcolon hc, Bool.false_eq_true, if_false, run_pure]
  · rfl

theorem exists_endsPlain (hflow : s.flowLevel = 0) : ∃ ends, endsPlain.run s = .ok (ends, s) := by
  cases hrest : s.rest with
  | nil =>
    refine ⟨true, ?_⟩
    simp only [endsPlain, StateT.run_bind, run_get, ok_bind, hrest, run_pure]
  | cons c rest =>
    by_cases hend : c = ':' ∧ isGap s.dialect rest.head? = true
    · exact ⟨true, run_endsPlain_of_colon (hend.1 ▸ hrest) hend.2⟩
    · refine ⟨false, run_endsPlain_of_ne hflow hrest fun hc => ?_⟩
      rw [← Bool.not_eq_true]
      exact fun hgap => hend ⟨hc, hgap⟩

/-- A word is read up to where it ends. -/
theorem run_readPlainPiece {fuel : Nat} (acc : List Char) {w rest : List Char}
    (hdialect : s.dialect = .modern)
    (hflow : s.flowLevel = 0) (hfuel : w.length < fuel) (hrest : s.rest = w ++ rest)
    (hw : ∀ c ∈ w, isGap .modern (some c) = false) (hlast : w.getLast? ≠ some ':')
    (hend : isGap .modern rest.head? = true ∨
      ∃ after, rest = ':' :: after ∧ isGap .modern after.head? = true) :
    (readPlainPiece fuel acc).run s = .ok (acc.reverse ++ w, s.advance w.length) := by
  induction w generalizing s fuel acc with
  | nil =>
    cases fuel with
    | zero => exact absurd hfuel (Nat.lt_irrefl 0)
    | succ fuel =>
      rw [List.nil_append] at hrest
      rw [List.append_nil, List.length_nil, Cursor.advance_zero]
      rcases hend with hgap | ⟨after, rfl, hgap⟩
      · obtain ⟨ends, hends⟩ := exists_endsPlain hflow
        simp only [readPlainPiece, StateT.run_bind, run_gapAt, ok_bind, hdialect, hrest,
          ← List.head?_eq_getElem?, hgap, hends, Bool.true_or, if_true, run_pure]
      · simp only [readPlainPiece, StateT.run_bind, run_gapAt, ok_bind,
          run_endsPlain_of_colon hrest (hdialect ▸ hgap), Bool.or_true, if_true, run_pure]
  | cons c w ih =>
    cases fuel with
    | zero => exact absurd hfuel (Nat.not_lt_zero _)
    | succ fuel =>
      obtain ⟨hc, hw'⟩ := List.forall_mem_cons.mp hw
      -- A colon is not the last character of the word, and no other ends a word.
      have hnext : c = ':' → isGap s.dialect (w ++ rest).head? = false := by
        rintro rfl
        cases w with
        | nil => exact absurd rfl hlast
        | cons d w => exact hdialect ▸ hw' d List.mem_cons_self
      have hlast' : w.getLast? ≠ some ':' := by
        cases w with
        | nil => exact Option.some_ne_none _ ∘ Eq.symm
        | cons d w => rwa [List.getLast?_cons_cons] at hlast
      have hih := ih (s := s.advance 1) (c :: acc) hdialect hflow
        (Nat.lt_of_succ_lt_succ hfuel) (Cursor.rest_advance_one hrest) hw' hlast'
      rw [Cursor.advance_advance, Nat.add_comm 1, List.reverse_cons, List.append_assoc] at hih
      simp only [readPlainPiece, StateT.run_bind, run_gapAt, ok_bind, hdialect, hrest,
        List.cons_append, List.getElem?_cons_zero, hc, run_endsPlain_of_ne hflow hrest hnext,
        Bool.or_self, Bool.false_eq_true, if_false, run_peek, run_skip, Option.toList_some]
      exact hih

/-! ### Plain text -/

/-- What reading a plain scalar does behind a word, with the text so far. -/
def readBehindWord (indent : Int) (fuel : Nat) (text : List Char) : Scan (List Char × Gap) := do
  match ← peek 0 with
  | none => pure (text, Gap.empty)
  | some c =>
    let d ← dialect
    if !(isBlank c || isBreak d c) then pure (text, Gap.empty)
    else
      let g ← readGap indent (← bound) Gap.empty
      let s ← get
      if s.flowLevel = 0 ∧ (s.mark.column : Int) < indent then pure (text, g)
      else readPlain indent fuel text g

variable {indent : Int} {fuel : Nat} {w after acc : List Char} {g : Gap}

theorem run_readPlain_word (hdialect : s.dialect = .modern) (hflow : s.flowLevel = 0)
    (hsize : s.rest.length ≤ s.size) (hmarker : atDocumentMarker.run s = .ok (false, s))
    (hrest : s.rest = w ++ after) (hw : ∀ c ∈ w, isGap .modern (some c) = false) (hne : w ≠ [])
    (hfirst : w.head? ≠ some '#') (hlast : w.getLast? ≠ some ':')
    (hend : isGap .modern after.head? = true ∨
      ∃ rest, after = ':' :: rest ∧ isGap .modern rest.head? = true) :
    (readPlain indent (fuel + 1) acc g).run s =
      (readBehindWord indent fuel (acc ++ g.folded ++ w)).run (s.advance w.length) := by
  have hfuel : w.length < s.size + 1 := by
    rw [hrest, List.length_append] at hsize
    omega
  have hpiece := run_readPlainPiece [] hdialect hflow hfuel hrest hw hlast hend
  have hnumber : s.rest[0]? ≠ some '#' := by
    cases w with
    | nil => exact absurd rfl hne
    | cons c w => rw [hrest]; exact hfirst
  simp only [readPlain, StateT.run_bind, hmarker, ok_bind, run_peek, decide_eq_false hnumber,
    Bool.or_self, Bool.false_eq_true, if_false, run_bound, hpiece, List.reverse_nil,
    List.nil_append, hne]
  rfl

/-- A scalar ends at a colon. -/
theorem run_readBehindWord_colon {rest : List Char} (hrest : s.rest = ':' :: rest) :
    (readBehindWord indent fuel acc).run s = .ok ((acc, Gap.empty), s) := by
  have hcolon : (isBlank ':' || isBreak s.dialect ':') = false := by
    cases s.dialect <;> decide
  simp only [readBehindWord, StateT.run_bind, run_peek, ok_bind, hrest, List.getElem?_cons_zero,
    run_dialect, hcolon, Bool.not_false, if_true, run_pure]

/-- A scalar goes on behind blanks. -/
theorem run_readBehindWord_blanks {n : Nat} {rest : List Char} (hdialect : s.dialect = .modern)
    (hsize : s.rest.length ≤ s.size)
    (hrest : s.rest = List.replicate (n + 1) ' ' ++ rest)
    (hhead : ∀ c ∈ rest.head?, isGap .modern (some c) = false)
    (hindent : indent ≤ s.mark.column) :
    (readBehindWord indent fuel acc).run s =
      (readPlain indent fuel acc ⟨List.replicate (n + 1) ' ', [], [], false⟩).run
        (s.advance (n + 1)) := by
  have hspace : (isBlank ' ' || isBreak s.dialect ' ') = true := by
    cases s.dialect <;> decide
  have hfuel : n + 1 < s.size + 1 := by
    rw [hrest, List.length_append, List.length_replicate] at hsize
    omega
  have hgap := run_readGap_blanks Gap.empty indent hdialect hfuel hrest hhead
  have hright : ¬ ((s.advance (n + 1)).flowLevel = 0 ∧
      ((s.advance (n + 1)).mark.column : Int) < indent) := by
    rintro ⟨-, hlt⟩
    simp only [Cursor.advance] at hlt
    omega
  have hpeek : s.rest[0]? = some ' ' := by rw [hrest, List.replicate_succ]; rfl
  simp only [readBehindWord, StateT.run_bind, run_peek, ok_bind, hpeek, run_dialect, hspace,
    Bool.not_true, Bool.false_eq_true, if_false, run_bound, hgap, run_get, hright]
  rfl

/-- A scalar ends with its line if the next line is to the left. -/
theorem run_readBehindWord_line (hdialect : s.dialect = .modern) (hflow : s.flowLevel = 0)
    (hsize : s.rest.length ≤ s.size) (hrest : s.rest = '\n' :: text)
    (htext : ∀ c ∈ (contents text).head?, isGap .modern (some c) = false)
    (hindent : indentation text < indent) :
    (readBehindWord indent fuel acc).run s =
      .ok ((acc, ⟨[], ['\n'], [], true⟩), s.breakLine.advance (indentation text)) := by
  have hfeed : (isBlank '\n' || isBreak s.dialect '\n') = true := by
    cases s.dialect <;> decide
  rw [hrest, List.length_cons] at hsize
  have hline := run_readGap_line Gap.empty indent hdialect rfl
    (Nat.succ_lt_succ hsize) hrest htext
  have hleft : (s.breakLine.advance (indentation text)).flowLevel = 0 ∧
      ((s.breakLine.advance (indentation text)).mark.column : Int) < indent := by
    refine ⟨hflow, ?_⟩
    simp only [Cursor.advance, Cursor.breakLine, Nat.zero_add]
    exact hindent
  simp only [readBehindWord, StateT.run_bind, run_peek, ok_bind, hrest, List.getElem?_cons_zero,
    run_dialect, hfeed, Bool.not_true, Bool.false_eq_true, if_false, run_bound, hline, run_get,
    hleft, if_true,
    run_pure, and_self]
  rfl

/-- A key is read up to its colon. -/
theorem run_readPlain_key {rest : List Char} (h : IsKey w) (hdialect : s.dialect = .modern)
    (hflow : s.flowLevel = 0) (hsize : s.rest.length ≤ s.size) (hrest : s.rest = w ++ ':' :: rest)
    (hgap : isGap .modern rest.head? = true) :
    (readPlain indent (fuel + 1) [] Gap.empty).run s =
      .ok ((w, Gap.empty), s.advance w.length) := by
  obtain ⟨c, w', rfl⟩ := List.exists_cons_of_ne_nil h.ne_nil
  have hfirst := h.first c rfl
  have hmarker := run_atDocumentMarker_of_beginsLine hrest (.inl hfirst)
  have hnumber : (c :: w').head? ≠ some '#' := by
    intro hc
    rw [Option.some.inj hc] at hfirst
    exact absurd hfirst (by decide)
  have hlast : (c :: w').getLast? ≠ some ':' := fun hc =>
    absurd (h.chars ':' (List.mem_of_getLast? hc)) (by decide)
  rw [run_readPlain_word hdialect hflow hsize hmarker hrest
    (fun d hd => isGap_of_isWordChar (h.chars d hd)) h.ne_nil hnumber hlast
    (.inr ⟨rest, rfl, hgap⟩), run_readBehindWord_colon (Cursor.rest_advance hrest rfl)]
  rfl

/-- A plain text is read up to the end of its line, and the blanks of the next one with it. -/
theorem run_readPlain (indent : Int) (acc : List Char) (g : Gap) {cs : List Char} (h : IsPlain cs)
    (hdialect : s.dialect = .modern)
    (hflow : s.flowLevel = 0) (hsize : s.rest.length ≤ s.size) (hfuel : cs.length < fuel)
    (hrest : s.rest = cs ++ '\n' :: text) (hne : cs ≠ []) (hspace : cs.head? ≠ some ' ')
    (hnumber : cs.head? ≠ some '#')
    (htext : ∀ c ∈ (contents text).head?, isGap .modern (some c) = false)
    (hcolumn : 0 < s.mark.column) (hright : indent ≤ s.mark.column)
    (hleft : indentation text < indent) :
    (readPlain indent fuel acc g).run s =
      .ok ((acc ++ g.folded ++ cs, ⟨[], ['\n'], [], true⟩),
        (s.advance cs.length).breakLine.advance (indentation text)) := by
  induction fuel generalizing s cs acc g with
  | zero => exact absurd hfuel (Nat.not_lt_zero _)
  | succ fuel ih =>
    have hmarker := run_atDocumentMarker_of_column s (Nat.ne_of_gt hcolumn)
    rcases cases_words cs with hword | ⟨w, n, rest, rfl, hword, hbehind⟩
    · have hgap : ∀ c ∈ cs, isGap .modern (some c) = false :=
        fun c hc => (h.chars c hc).resolve_left (hword c hc)
      rw [run_readPlain_word hdialect hflow hsize hmarker hrest hgap hne hnumber h.last_ne_colon
        (.inl rfl)]
      exact run_readBehindWord_line hdialect hflow
        (Nat.le_trans (Cursor.length_rest_advance _ _) hsize)
        (Cursor.rest_advance hrest rfl) htext hleft
    · have hrest' : s.rest = w ++ (List.replicate (n + 1) ' ' ++ (rest ++ '\n' :: text)) := by
        rw [hrest, List.append_assoc, List.append_assoc]
      have hgap : ∀ c ∈ w, isGap .modern (some c) = false :=
        fun c hc => (h.chars c (List.mem_append_left _ hc)).resolve_left (hword c hc)
      have hw : w ≠ [] := by
        rintro rfl
        exact hspace rfl
      have hnumber' : w.head? ≠ some '#' := by
        rwa [List.head?_append_of_ne_nil w hw] at hnumber
      have hrest_ne := h.behind_ne_nil
      have hplain : IsPlain rest := (List.append_assoc w _ rest ▸ h).right hrest_ne
      have hhead : ∀ c ∈ (rest ++ '\n' :: text).head?, isGap .modern (some c) = false := by
        intro c hc
        rw [List.head?_append_of_ne_nil rest hrest_ne] at hc
        refine (hplain.chars c (List.mem_of_mem_head? hc)).resolve_left ?_
        rintro rfl
        exact hbehind hc
      rw [run_readPlain_word hdialect hflow hsize hmarker hrest' hgap hw hnumber' h.getLast?_word
        (.inl rfl)]
      have hsize' : (s.advance w.length).rest.length ≤ s.size :=
        Nat.le_trans (Cursor.length_rest_advance _ _) hsize
      have hrest'' := Cursor.rest_advance hrest' rfl
      rw [run_readBehindWord_blanks (s := s.advance w.length) hdialect hsize' hrest'' hhead
        (Int.le_trans hright (by simp only [Cursor.advance]; omega))]
      rw [List.length_append, List.length_append, List.length_replicate] at hfuel ⊢
      rw [ih (s := (s.advance w.length).advance (n + 1)) _ _ hplain hdialect hflow
        (Nat.le_trans (Cursor.length_rest_advance _ _) hsize') (by omega)
        (Cursor.rest_advance hrest'' List.length_replicate) hrest_ne hbehind h.head?_behind
        (by simp only [Cursor.advance]; omega) (by simp only [Cursor.advance]; omega)]
      simp only [Cursor.advance_advance, Gap.folded, List.append_assoc, Nat.add_assoc,
        Bool.not_false, if_true]

theorem run_readPlainScalar {cs : List Char} {cols : List Nat} {s' : Cursor}
    (hflow : s.flowLevel = 0) (hblocks : s.IsIn cols ∨ s.IsPast cols)
    (hread : (readPlain (innermost cols + 1) (s.size + 1) [] Gap.empty).run (s.within cols) =
      .ok ((cs, g), s')) :
    readPlainScalar.run s = .ok (cs, if g.isBroken then s'.allow true else s') := by
  have hflow' : ¬ 0 < (s.within cols).flowLevel := Nat.not_lt.mpr (Nat.le_of_eq hflow)
  have hindent : (s.within cols).indent = innermost cols := rfl
  have hsize : (s.within cols).size = s.size := rfl
  simp only [readPlainScalar, StateT.run_bind, run_unrollColumns hblocks, ok_bind, run_get, hflow',
    false_and, and_false, if_false, run_bound, hindent, hsize, hread]
  split
  · simp only [StateT.run_bind, run_allowKey, ok_bind, run_pure]
  · rfl

/-- Nothing but a plain scalar begins with a character that is no indicator. -/
theorem run_fetchFrom_plain {c : Char} {rest : List Char} (hdialect : s.dialect = .modern)
    (hflow : s.flowLevel = 0) (hrest : s.rest = c :: rest) (hc : c ∉ leadingIndicators)
    (hnext : c = '?' ∨ c = ':' ∨ c = '-' → isGap .modern rest.head? = false) :
    (fetchFrom c).run s = fetchPlain.run s := by
  have hne : ∀ d ∈ leadingIndicators, c ≠ d := fun d hd heq => hc (heq ▸ hd)
  have hhead : s.rest[1]? = rest.head? := by
    rw [hrest, List.getElem?_cons_succ, List.head?_eq_getElem?]
  have hgap : c = '?' ∨ c = ':' ∨ c = '-' → isGap s.dialect s.rest[1]? = false := by
    rw [hdialect, hhead]
    exact hnext
  have hsubset : ∀ d ∈ ['%', '@', '\x60'], d ∈ leadingIndicators := by
    simp [leadingIndicators]
  have hindicator : isIndicator .modern c = false := by
    rw [isIndicator, List.contains_eq_mem, decide_eq_false_iff_not]
    exact fun hmem => hc (hsubset c hmem)
  have hother : (fetchOther c).run s = fetchPlain.run s := by
    simp only [fetchOther, StateT.run_bind, run_get, run_gapAt, ok_bind, hdialect, hindicator,
      Bool.not_false, Bool.true_or, if_true]
  have hdash : ¬ (c = '-' ∧ isGap s.dialect s.rest[1]? = true) := fun h =>
    absurd h.2 (Bool.eq_false_iff.mp (hgap (.inr (.inr h.1))))
  have hquestion : ¬ (c = '?' ∧ (isGap s.dialect s.rest[1]? = true ∨
      (0 < s.flowLevel ∧ s.dialect = .classic))) := by
    rintro ⟨hc, hgapped | ⟨hbrackets, -⟩⟩
    · exact absurd hgapped (Bool.eq_false_iff.mp (hgap (.inl hc)))
    · exact absurd hflow (Nat.ne_of_gt hbrackets)
  simp only [fetchFrom, StateT.run_bind, run_get, run_gapAt, ok_bind, hdash, hquestion,
    hne '[' (by decide), hne ']' (by decide), hne '\x7b' (by decide), hne '\x7d' (by decide),
    hne ',' (by decide), hne '*' (by decide), hne '&' (by decide), hne '!' (by decide),
    hne '|' (by decide), hne '>' (by decide), hne '\'' (by decide), hne '"' (by decide),
    false_or, false_and, if_false]
  split
  · rename_i hcolon
    simp only [colonIsValue, StateT.run_bind, run_get, ok_bind, hgap (.inr (.inl hcolon)), hflow,
      Bool.false_eq_true, if_false, if_true, run_pure, hother]
  · exact hother

/-- A plain text is scanned with the end of its line. -/
theorem exists_fetchPlain {cs : List Char} {column : Nat} {cols : List Nat} {ts : List Token}
    (h : s.Ready (column :: cols) ts (cs ++ '\n' :: text)) (hplain : IsPlain cs) (hne : cs ≠ [])
    (hspace : cs.head? ≠ some ' ') (hnumber : cs.head? ≠ some '#')
    (hcolumn : column < s.mark.column) (htext : Cursor.Resumes column text) :
    ∃ s', fetchPlain.run s = .ok ((), s') ∧
      s'.Between (column :: cols) (.scalar cs .plain :: ts) text := by
  obtain ⟨k, hkey, hrequired⟩ := exists_saveKey h (Int.ofNat_lt.mpr hcolumn)
  have hsize : cs.length < s.size + 1 := by
    have hsize := h.size
    rw [h.rest, List.length_append] at hsize
    omega
  have hread := run_readPlain (s := ((s.withKeys [k]).allow false).within (column :: cols))
    (innermost (column :: cols) + 1) [] Gap.empty hplain h.dialect h.flowLevel h.size hsize h.rest
    hne hspace hnumber htext.dense.isGap_head?
    (Nat.zero_lt_of_lt hcolumn) (Int.ofNat_lt.mpr hcolumn)
    (Int.lt_add_one_of_le (Int.ofNat_le.mpr htext.left))
  have hscalar := run_readPlainScalar (s := (s.withKeys [k]).allow false) h.flowLevel h.blocks hread
  rw [if_pos rfl] at hscalar
  have hfetch := run_fetchNode (do pure (.scalar (← readPlainScalar) .plain)) hkey (by
    simp only [StateT.run_bind, hscalar, ok_bind, run_pure]; rfl)
  have hrest : ((((s.withKeys [k]).allow false).within (column :: cols)).advance cs.length).rest =
    '\n' :: text := Cursor.rest_advance h.rest rfl
  refine ⟨_, hfetch, { place := .inr ⟨?_, Nat.zero_add _, rfl⟩, blocks := ?_ }⟩
  · rw [← drop_indentation]
    exact congrArg (List.drop (indentation text)) (Cursor.rest_breakLine hrest)
  · have hsteady := ((h.toSteady.withKeys hrequired).allow false).within (column :: cols)
    exact ⟨[], _, .inl ⟨rfl, rfl⟩, fun _ hc => (nomatch hc),
      (((hsteady.advance _).breakLine.advance _).allow true).push _, rfl⟩

end Scan

end Yaml

end PlatformProxy
