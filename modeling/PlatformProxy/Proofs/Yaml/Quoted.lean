import Mathlib.Algebra.GroupWithZero.Nat
import PlatformProxy.Proofs.Yaml.Plain

/-!
# Reading quoted text

What stands between quotes is read in pieces without blanks. A piece is read character by
character, where a character may be written as several; so all that matters about a way of writing
is that each character but the blank is read back in one step.

## Main definitions

* `Yaml.Scan.Spells` — what is read back as a character in one step

## Main results

* `Yaml.Scan.run_readQuoted` — a text is read up to its closing quote
-/

namespace PlatformProxy

namespace Yaml

namespace Cursor

/-- A quoted scalar ends here, so a colon needs no gap behind it. -/
def join (s : Cursor) : Cursor := { s with adjacent := some s.mark.index }

theorem Steady.join {s : Cursor} {ts : List Token} (h : s.Steady ts) : s.join.Steady ts :=
  { h with }

end Cursor

namespace Scan

variable {s : Cursor} {double : Bool}

/-- The quote of a form. -/
def quote (double : Bool) : Char := if double then '"' else '\''

/-- Some characters, which do not begin with a gap, are read as one character of a piece. -/
structure Spells (double : Bool) (c : Char) (written : List Char) : Prop where
  ne_nil : written ≠ []
  head : ∀ d ∈ written.head?, isGap .modern (some d) = false
  reads : ∀ {s : Cursor} {rest : List Char} (fuel : Nat) (acc : List Char), s.dialect = .modern →
    s.rest = written ++ rest →
    (readQuotedPiece double (fuel + 1) acc).run s =
      (readQuotedPiece double fuel (c :: acc)).run (s.advance written.length)

variable {enc : Char → List Char}

theorem isGap_quote (double : Bool) : isGap .modern (some (quote double)) = false := by
  cases double <;> decide

/-- A piece ends at the closing quote. -/
theorem run_readQuotedPiece_quote {fuel : Nat} {acc after : List Char}
    (hdialect : s.dialect = .modern) (hrest : s.rest = quote double :: '\n' :: after) :
    (readQuotedPiece double (fuel + 1) acc).run s = .ok ((acc.reverse, false), s) := by
  simp only [readQuotedPiece, StateT.run_bind, run_gapAt, ok_bind, hdialect, hrest,
    List.getElem?_cons_zero, isGap_quote, Bool.false_eq_true, if_false, run_peek, run_dialect,
    List.getElem?_cons_succ]
  cases double with
  | false =>
    simp only [Bool.not_false, quote, Bool.false_eq_true, if_false, decide_true, Bool.and_self,
      Option.some.injEq, Char.reduceEq, decide_false, Bool.and_false, if_true, run_pure]
  | true =>
    simp only [Bool.not_true, quote, if_true, Option.some.injEq, Char.reduceEq, decide_false,
      Bool.and_self, Bool.false_eq_true, if_false, run_pure]

/-- A piece is read up to a blank or the closing quote. -/
theorem run_readQuotedPiece {fuel : Nat} (acc : List Char) {w rest : List Char}
    (hdialect : s.dialect = .modern)
    (hw : ∀ c ∈ w, Spells double c (enc c)) (hfuel : (w.flatMap enc).length < fuel)
    (hrest : s.rest = w.flatMap enc ++ rest)
    (hend : isGap .modern rest.head? = true ∨
      ∃ after, rest = quote double :: '\n' :: after) :
    (readQuotedPiece double fuel acc).run s =
      .ok ((acc.reverse ++ w, false), s.advance (w.flatMap enc).length) := by
  induction w generalizing s fuel acc with
  | nil =>
    cases fuel with
    | zero => exact absurd hfuel (Nat.not_lt_zero _)
    | succ fuel =>
      rw [List.flatMap_nil, List.nil_append] at hrest
      rw [List.flatMap_nil, List.append_nil, List.length_nil, Cursor.advance_zero]
      rcases hend with hgap | ⟨after, rfl⟩
      · simp only [readQuotedPiece, StateT.run_bind, run_gapAt, ok_bind, hdialect, hrest,
          ← List.head?_eq_getElem?, hgap, if_true, run_pure]
      · exact run_readQuotedPiece_quote hdialect hrest
  | cons c w ih =>
    cases fuel with
    | zero => exact absurd hfuel (Nat.not_lt_zero _)
    | succ fuel =>
      obtain ⟨hc, hw⟩ := List.forall_mem_cons.mp hw
      rw [List.flatMap_cons, List.append_assoc] at hrest
      rw [List.flatMap_cons, List.length_append] at hfuel
      have hpos := List.length_pos_iff.mpr hc.ne_nil
      rw [hc.reads fuel acc hdialect hrest,
        ih (s := s.advance (enc c).length) (c :: acc) hdialect hw (by omega)
          (Cursor.rest_advance hrest rfl),
        Cursor.advance_advance, List.flatMap_cons, List.length_append, List.reverse_cons,
        List.append_assoc]
      rfl

/-- What is left of a quoted text behind blanks does not begin with a gap. -/
theorem isGap_head?_quoted {cs : List Char} (text : List Char)
    (hcs : ∀ c ∈ cs.head?, Spells double c (enc c)) :
    ∀ d ∈ (cs.flatMap enc ++ quote double :: text).head?, isGap .modern (some d) = false := by
  cases cs with
  | nil => exact fun d hd => Option.some.inj hd ▸ isGap_quote double
  | cons c cs =>
    have hc := hcs c rfl
    rw [List.flatMap_cons, List.append_assoc, List.head?_append_of_ne_nil _ hc.ne_nil]
    exact hc.head

section Words

variable {fuel : Nat} (acc : List Char) {w : List Char}

/-- One round of reading: a piece, and then the closing quote or a gap. -/
theorem run_readQuoted_round {piece : List Char} {s' : Cursor} (hne : s.rest ≠ [])
    (hcolumn : 0 < s.mark.column) (hindent : s.indent ≤ s.mark.column)
    (hpiece : (readQuotedPiece double (s.size + 1) []).run s = .ok ((piece, false), s'))
    (hdialect : s'.dialect = .modern) :
    (readQuoted double (fuel + 1) acc).run s =
      if s'.rest[0]? = some (quote double) then .ok (acc ++ piece, s'.advance 1)
      else
        (do
          let g ← readGap s.indent (s'.size + 1) { Gap.empty with isBroken := false }
          readQuoted double fuel (acc ++ piece ++ g.folded)).run s' := by
  have hmarker := run_atDocumentMarker_of_column s (Nat.ne_of_gt hcolumn)
  have hin : ¬ (s.dialect = .modern ∧ (s.mark.column : Int) < s.indent) :=
    fun h => absurd hindent (Int.not_le.mpr h.2)
  have hfold : (if double then '"' else '\'') = quote double := rfl
  simp only [readQuoted, StateT.run_bind, hmarker, ok_bind, Bool.false_eq_true, if_false, run_get,
    hne, hin, run_bound, hpiece, run_peek, hfold]
  split
  · rfl
  · simp only [StateT.run_bind, run_dialect, ok_bind, hdialect, if_true, run_pure, run_bound]

/-- The last word is read together with the closing quote. -/
theorem run_readQuoted_last {text : List Char} (hdialect : s.dialect = .modern)
    (hsize : s.rest.length ≤ s.size) (hw : ∀ c ∈ w, Spells double c (enc c))
    (hrest : s.rest = w.flatMap enc ++ quote double :: '\n' :: text) (hcolumn : 0 < s.mark.column)
    (hindent : s.indent ≤ s.mark.column) :
    (readQuoted double (fuel + 1) acc).run s =
      .ok (acc ++ w, s.advance ((w.flatMap enc).length + 1)) := by
  have hne : s.rest ≠ [] := by
    rw [hrest]
    exact List.append_ne_nil_of_right_ne_nil _ (List.cons_ne_nil _ _)
  have hlength : (w.flatMap enc).length < s.size + 1 := by
    rw [hrest, List.length_append] at hsize
    omega
  have hpiece := run_readQuotedPiece [] hdialect hw hlength hrest (.inr ⟨text, rfl⟩)
  have hquote : (s.advance (w.flatMap enc).length).rest[0]? = some (quote double) := by
    rw [Cursor.rest_advance hrest rfl]
    rfl
  rw [run_readQuoted_round acc hne hcolumn hindent hpiece hdialect, if_pos hquote,
    Cursor.advance_advance]
  rfl

/-- Any other word is read together with the blanks behind it. -/
theorem run_readQuoted_word {n : Nat} {after : List Char} (hdialect : s.dialect = .modern)
    (hsize : s.rest.length ≤ s.size) (hw : ∀ c ∈ w, Spells double c (enc c))
    (hrest : s.rest = w.flatMap enc ++ (List.replicate (n + 1) ' ' ++ after))
    (hafter : ∀ d ∈ after.head?, isGap .modern (some d) = false) (hcolumn : 0 < s.mark.column)
    (hindent : s.indent ≤ s.mark.column) :
    (readQuoted double (fuel + 1) acc).run s =
      (readQuoted double fuel (acc ++ w ++ List.replicate (n + 1) ' ')).run
        (s.advance ((w.flatMap enc).length + (n + 1))) := by
  have hne : s.rest ≠ [] := by
    rw [hrest]
    exact List.append_ne_nil_of_right_ne_nil _ (List.cons_ne_nil _ _)
  have hlength := hsize
  rw [hrest, List.length_append, List.length_append, List.length_replicate] at hlength
  have hpiece := run_readQuotedPiece [] hdialect hw
    (Nat.lt_succ_of_le (by omega : _ ≤ s.size)) hrest (.inl rfl)
  have hrest' := Cursor.rest_advance hrest rfl
  have hquote : ¬ (s.advance (w.flatMap enc).length).rest[0]? = some (quote double) := by
    rw [hrest']
    cases double <;> exact fun h => absurd (Option.some.inj h) (by decide)
  have hgap : (readGap s.indent ((s.advance (w.flatMap enc).length).size + 1)
      { Gap.empty with isBroken := false }).run (s.advance (w.flatMap enc).length) =
        .ok (⟨List.replicate (n + 1) ' ', [], [], false⟩,
          (s.advance (w.flatMap enc).length).advance (n + 1)) :=
    run_readGap_blanks (s := s.advance (w.flatMap enc).length) Gap.empty s.indent hdialect
      (Nat.lt_succ_of_le (by simp only [Cursor.advance]; omega)) hrest' hafter
  rw [run_readQuoted_round acc hne hcolumn hindent hpiece hdialect, if_neg hquote]
  simp only [StateT.run_bind, hgap, ok_bind, Gap.folded, Bool.not_false, if_true,
    List.reverse_nil, List.nil_append, Cursor.advance_advance]

end Words

/-- A text is read up to its closing quote. -/
theorem run_readQuoted {fuel : Nat} (acc : List Char) {cs text : List Char}
    (hdialect : s.dialect = .modern)
    (hsize : s.rest.length ≤ s.size) (henc : ∀ c ∈ cs, c ≠ ' ' → Spells double c (enc c))
    (hspace : enc ' ' = [' ']) (hfuel : (cs.flatMap enc).length < fuel)
    (hrest : s.rest = cs.flatMap enc ++ quote double :: '\n' :: text) (hcolumn : 0 < s.mark.column)
    (hindent : s.indent ≤ s.mark.column) :
    (readQuoted double fuel acc).run s =
      .ok (acc ++ cs, s.advance ((cs.flatMap enc).length + 1)) := by
  induction fuel generalizing s cs acc with
  | zero => exact absurd hfuel (Nat.not_lt_zero _)
  | succ fuel ih =>
    rcases cases_words cs with hword | ⟨w, n, rest, rfl, hword, hbehind⟩
    · exact run_readQuoted_last acc hdialect hsize (fun c hc => henc c hc (hword c hc)) hrest
        hcolumn hindent
    · have hblanks : (List.replicate (n + 1) ' ').flatMap enc = List.replicate (n + 1) ' ' := by
        rw [List.flatMap_replicate, hspace, List.flatten_replicate_singleton]
      rw [List.flatMap_append, List.flatMap_append, hblanks] at hrest hfuel ⊢
      rw [List.append_assoc, List.append_assoc] at hrest
      rw [List.length_append, List.length_append, List.length_replicate] at hfuel ⊢
      have hw : ∀ c ∈ w, Spells double c (enc c) := fun c hc =>
        henc c (List.mem_append_left _ hc) (hword c hc)
      have hrest_enc : ∀ c ∈ rest, c ≠ ' ' → Spells double c (enc c) := fun c hc =>
        henc c (List.mem_append_right _ (List.mem_append_right _ hc))
      have hafter := isGap_head?_quoted ('\n' :: text) fun c (hc : c ∈ rest.head?) =>
        hrest_enc c (List.mem_of_mem_head? hc) fun h => hbehind (h ▸ hc)
      have hrest' := Cursor.rest_advance (Cursor.rest_advance hrest rfl) List.length_replicate
      rw [Cursor.advance_advance] at hrest'
      rw [run_readQuoted_word acc hdialect hsize hw hrest hafter hcolumn hindent,
        ih (s := s.advance ((w.flatMap enc).length + (n + 1)))
          (acc ++ w ++ List.replicate (n + 1) ' ') hdialect
          (Nat.le_trans (Cursor.length_rest_advance _ _) hsize) hrest_enc (by omega) hrest'
          (Nat.lt_of_lt_of_le hcolumn (Nat.le_add_right _ _))
          (Int.le_trans hindent (Int.ofNat_le.mpr (Nat.le_add_right _ _))),
        Cursor.advance_advance]
      simp only [List.append_assoc, Nat.add_assoc]

/-! ### Escapes -/

theorem baseDigit?_upperHexDigit {d : Nat} (h : d < 16) :
    Text.baseDigit? 16 (upperHexDigit d) = some d := by
  revert d
  decide

theorem foldlM_hexDigits (n width value : Nat) :
    (hexDigits n width).foldlM (fun v c => (Text.baseDigit? 16 c).map fun d => v * 16 + d) value =
      some (value * 16 ^ width + n % 16 ^ width) := by
  induction width generalizing n with
  | zero => simp only [hexDigits, List.foldlM_nil, Nat.pow_zero, Nat.mul_one, Nat.mod_one]; rfl
  | succ width ih =>
    have hdigit : n % 16 < 16 := Nat.mod_lt n (by decide)
    rw [hexDigits, List.foldlM_append, ih, Nat.pow_succ', Nat.mod_mul]
    simp only [Option.bind_eq_bind, Option.bind_some, List.foldlM_cons, List.foldlM_nil,
      baseDigit?_upperHexDigit hdigit, Option.map_some, Option.pure_def, Option.some.injEq]
    rw [Nat.mul_left_comm value 16, Nat.add_mul]
    omega

theorem length_hexDigits (n width : Nat) : (hexDigits n width).length = width := by
  induction width generalizing n with
  | zero => rfl
  | succ width ih => rw [hexDigits, List.length_append, ih, List.length_singleton]

theorem baseValue?_hexDigits {n width : Nat} (hwidth : width ≠ 0) (h : n < 16 ^ width) :
    Text.baseValue? 16 (hexDigits n width) = some n := by
  have hne : hexDigits n width ≠ [] := by
    intro hnil
    have hlength := length_hexDigits n width
    rw [hnil] at hlength
    exact hwidth hlength.symm
  rw [Text.baseValue?, if_neg hne, foldlM_hexDigits, Nat.zero_mul, Nat.zero_add, Nat.mod_eq_of_lt h]

/-- An escape with a number of hexadecimal digits. -/
theorem run_readEscape_hex {c letter : Char} {width : Nat} {rest : List Char}
    (hletter : escaped? letter = none) (hescape : escapeWidth? letter = some width)
    (hwidth : width ≠ 0) (hlt : c.toNat < 16 ^ width)
    (hrest : s.rest = letter :: (hexDigits c.toNat width ++ rest)) :
    readEscape.run s = .ok (c, s.advance (1 + width)) := by
  have hdigits : (s.advance 1).rest.take width = hexDigits c.toNat width := by
    rw [Cursor.rest_advance_one hrest, List.take_left' (length_hexDigits _ _)]
  have hvalid : c.toNat.isValidChar := c.valid
  simp only [readEscape, StateT.run_bind, run_peek, ok_bind, hrest, List.getElem?_cons_zero,
    run_skip, hletter, hescape, run_get, hdigits, baseValue?_hexDigits hwidth hlt,
    length_hexDigits, hvalid, and_self, if_true, Char.ofNat_toNat, run_pure,
    Cursor.advance_advance]

/-- An escape with a letter. -/
theorem run_readEscape_letter {c letter : Char} {rest : List Char}
    (hletter : escaped? letter = some c) (hrest : s.rest = letter :: rest) :
    readEscape.run s = .ok (c, s.advance 1) := by
  simp only [readEscape, StateT.run_bind, run_peek, ok_bind, hrest, List.getElem?_cons_zero,
    run_skip,
    hletter, run_pure]

/-! ### Characters of a quoted text -/

/-- A character that is written as it is. -/
theorem spells_self {c : Char} (hgap : isGap .modern (some c) = false) (hquote : c ≠ quote double)
    (hescape : double = true → c ≠ '\\') : Spells double c [c] where
  ne_nil := List.cons_ne_nil _ _
  head := fun d hd => Option.some.inj hd ▸ hgap
  reads := by
    intro s rest fuel acc hdialect hrest
    rw [List.singleton_append] at hrest
    simp only [readQuotedPiece, StateT.run_bind, run_gapAt, ok_bind, hdialect, hrest,
      List.getElem?_cons_zero, hgap, Bool.false_eq_true, if_false, run_peek, run_dialect]
    cases double with
    | false =>
      have hquote : c ≠ '\'' := hquote
      simp only [Bool.not_false, Option.some.injEq, hquote, decide_false, Bool.and_false,
        Bool.false_and, Bool.false_eq_true, if_false, StateT.run_bind, run_skip, ok_bind,
        Option.toList_some, List.cons_append, List.nil_append, List.length_singleton]
    | true =>
      have hquote : c ≠ '"' := hquote
      have hescape : c ≠ '\\' := hescape rfl
      simp only [Bool.not_true, Bool.false_and, Bool.false_eq_true, if_false, if_true,
        Option.some.injEq, hquote, hescape, decide_false, Bool.and_false, StateT.run_bind, run_skip,
        ok_bind, Option.toList_some, List.cons_append, List.nil_append, List.length_singleton]

/-- Two single quotes stand for one. -/
theorem spells_singleQuote : Spells false '\'' ['\'', '\''] where
  ne_nil := List.cons_ne_nil _ _
  head := fun d hd => Option.some.inj hd ▸ by decide
  reads := by
    intro s rest fuel acc hdialect hrest
    have hgap : isGap .modern (some '\'') = false := by decide
    simp only [readQuotedPiece, StateT.run_bind, run_gapAt, ok_bind, hdialect, hrest,
      List.cons_append, List.getElem?_cons_zero, List.getElem?_cons_succ, hgap, Bool.false_eq_true,
      if_false, run_peek, run_dialect, Bool.not_false, decide_true, Bool.and_self, if_true,
      run_skip, List.length_cons, List.length_nil]

/-- A backslash with an escape behind it. -/
theorem spells_escape {c letter : Char} {behind : List Char} (hend : isBreak .modern letter = false)
    (hread : ∀ {s : Cursor} {rest : List Char}, s.rest = letter :: (behind ++ rest) →
      readEscape.run s = .ok (c, s.advance (1 + behind.length))) :
    Spells true c ('\\' :: letter :: behind) where
  ne_nil := List.cons_ne_nil _ _
  head := fun d hd => Option.some.inj hd ▸ by decide
  reads := by
    intro s rest fuel acc hdialect hrest
    have hgap : isGap .modern (some '\\') = false := by decide
    have hrest' : (s.advance 1).rest = letter :: (behind ++ rest) := Cursor.rest_advance_one hrest
    simp only [readQuotedPiece, StateT.run_bind, run_gapAt, ok_bind, hdialect, hrest,
      List.cons_append, List.getElem?_cons_zero, List.getElem?_cons_succ, hgap, Bool.false_eq_true,
      if_false, run_peek, run_dialect, Bool.not_true, Bool.false_and, if_true, Option.some.injEq,
      Char.reduceEq, decide_true, Bool.and_self, run_skip, isLineEnd, hend, hread hrest',
      Cursor.advance_advance]
    rw [List.length_cons, List.length_cons, Nat.add_comm 1 (1 + behind.length), Nat.add_comm 1]

theorem isGap_of_isPrintable {c : Char} (hprintable : isPrintable c = true)
    (hend : endsLine c = false) (hspace : c ≠ ' ') : isGap .modern (some c) = false := by
  have htab : c ≠ '\t' := by
    rintro rfl
    exact absurd hprintable (by decide)
  simp only [endsLine, Bool.or_eq_false_iff, decide_eq_false_iff_not] at hend
  simp only [isGap, isBlank, isBreak, hspace, htab, hend, decide_false, Bool.or_self,
    Bool.false_and, reduceCtorEq]

theorem escaped?_of_escapeLetter? {c letter : Char} (h : escapeLetter? c = some letter) :
    escaped? letter = some c ∧ isBreak .modern letter = false := by
  unfold escapeLetter? at h
  split at h
  case h_15 => exact absurd h nofun
  all_goals
    obtain rfl := Option.some.inj h
    decide

/-- Between double quotes every character but the blank is read back in one step. -/
theorem spells_doubleQuotedChar {c : Char} (hspace : c ≠ ' ') :
    Spells true c (doubleQuotedChar c) := by
  have hhex : ∀ (letter : Char) (width : Nat), escaped? letter = none →
      escapeWidth? letter = some width → width ≠ 0 → isBreak .modern letter = false →
      c.toNat < 16 ^ width → Spells true c ('\\' :: letter :: hexDigits c.toNat width) := by
    intro letter width hletter hescape hwidth hend hlt
    refine spells_escape hend fun hrest => ?_
    rw [length_hexDigits]
    exact run_readEscape_hex hletter hescape hwidth hlt hrest
  have hlt : c.toNat < 16 ^ 8 := by
    have hvalid : c.toNat.isValidChar := c.valid
    rw [Nat.isValidChar] at hvalid
    omega
  rw [doubleQuotedChar]
  split
  · rename_i hplain
    simp only [Bool.and_eq_true, Bool.not_eq_true', decide_eq_true_eq] at hplain
    obtain ⟨⟨⟨hprintable, hend⟩, hquote⟩, hescape⟩ := hplain
    exact spells_self (isGap_of_isPrintable hprintable hend hspace) hquote fun _ => hescape
  · split
    · rename_i letter hletter
      obtain ⟨hescaped, hend⟩ := escaped?_of_escapeLetter? hletter
      exact spells_escape hend fun hrest => run_readEscape_letter hescaped hrest
    · split
      · exact hhex 'x' 2 rfl rfl (by decide) (by decide) (by omega)
      · split
        · exact hhex 'u' 4 rfl rfl (by decide) (by decide) (by omega)
        · exact hhex 'U' 8 rfl rfl (by decide) (by decide) hlt

/-- How a character is written between single quotes. -/
def singleQuotedChar (c : Char) : List Char := if c = '\'' then ['\'', '\''] else [c]

theorem spells_singleQuotedChar {c : Char} (hgap : isGap .modern (some c) = false) :
    Spells false c (singleQuotedChar c) := by
  rw [singleQuotedChar]
  split
  · rename_i hquote
    subst hquote
    exact spells_singleQuote
  · rename_i hquote
    exact spells_self hgap hquote fun h => absurd h Bool.false_ne_true

theorem singleQuotedChars_eq {indent : Nat} {cs : List Char} (h : ∀ c ∈ cs, endsLine c = false) :
    singleQuotedChars indent false cs = cs.flatMap singleQuotedChar := by
  induction cs with
  | nil => rfl
  | cons c cs ih =>
    obtain ⟨hc, hcs⟩ := List.forall_mem_cons.mp h
    rw [singleQuotedChars, if_neg (Bool.eq_false_iff.mp hc), ih hcs, List.flatMap_cons]
    split
    · rename_i hspace
      subst hspace
      rfl
    · rfl

/-! ### Quoted texts -/

/-- Only the end of the line is behind a quoted text. -/
theorem run_checkAfterQuoted {line : Nat} {text : List Char} (hrest : s.rest = '\n' :: text) :
    (checkAfterQuoted line).run s = .ok ((), s) := by
  have hend : isBreak .modern '\n' = true := by decide
  simp only [checkAfterQuoted, StateT.run_bind, run_dialect, ok_bind]
  split
  · simp only [StateT.run_bind, run_skipToLineEnd hrest, ok_bind, run_get, hrest, List.head?_cons,
      hend, Bool.true_or, Bool.not_true, Bool.false_eq_true, if_false, run_pure]
  · rfl

/-- A quoted text is scanned up to the end of its line. -/
theorem exists_fetchQuoted {cs text : List Char} {column : Nat} {cols : List Nat} {ts : List Token}
    (h : s.Ready (column :: cols) ts
      (quote double :: (cs.flatMap enc ++ quote double :: '\n' :: text)))
    (henc : ∀ c ∈ cs, c ≠ ' ' → Spells double c (enc c)) (hspace : enc ' ' = [' '])
    (hcolumn : column < s.mark.column) :
    ∃ s', (fetchQuoted double).run s = .ok ((), s') ∧
      s'.Between (column :: cols)
        (.scalar cs (if double then .doubleQuoted else .singleQuoted) :: ts) text := by
  obtain ⟨k, hkey, hrequired⟩ := exists_saveKey h (Int.ofNat_lt.mpr hcolumn)
  have hrest : (((s.withKeys [k]).allow false).advance 1).rest =
      cs.flatMap enc ++ quote double :: '\n' :: text := Cursor.rest_advance_one h.rest
  have hlength : (cs.flatMap enc).length < s.size + 1 := by
    have hsize := h.size
    rw [h.rest, List.length_cons, List.length_append] at hsize
    omega
  have hread := run_readQuoted (s := ((s.withKeys [k]).allow false).advance 1) [] h.dialect
    (Nat.le_trans (Cursor.length_rest_advance _ _) h.size) henc hspace hlength hrest
    (Nat.succ_pos _) (Int.le_trans h.column (Int.ofNat_le.mpr (Nat.le_succ _)))
  have hrest' := Cursor.rest_advance_one (Cursor.rest_advance hrest rfl)
  rw [List.nil_append, Cursor.advance_advance] at hread
  rw [Cursor.advance_advance, Cursor.advance_advance] at hrest'
  have hfetch : (fetchQuoted double).run s = .ok ((),
      (((s.withKeys [k]).allow false).advance (1 + ((cs.flatMap enc).length + 1))).join.push
        (.scalar cs (if double then .doubleQuoted else .singleQuoted))) := by
    have hsize : (((s.withKeys [k]).allow false).advance 1).size = s.size := rfl
    simp only [fetchQuoted, fetchNode, StateT.run_bind, hkey, ok_bind, run_allowKey, run_get,
      run_skip, run_bound, hsize, hread, run_checkAfterQuoted hrest', run_modify, run_pure,
      run_emit]
    rfl
  have hsteady := ((h.toSteady.withKeys hrequired).allow false).advance
    (1 + ((cs.flatMap enc).length + 1))
  exact ⟨_, hfetch,
    { place := .inl hrest'
      blocks :=
        ⟨[], _, h.blocks, fun _ hc => absurd hc List.not_mem_nil, hsteady.join.push _, rfl⟩ }⟩

end Scan

end Yaml

end PlatformProxy
