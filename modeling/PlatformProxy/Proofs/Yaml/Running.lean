import PlatformProxy.Yaml.Tokens

/-!
# What the steps of a scanner do

Cutting a text into tokens is written as changes of a state that may fail. Here each of the small
changes is given as a function of the state, so that a larger one is run by rewriting.

## Main definitions

* `Yaml.Cursor.advance`, `Yaml.Cursor.breakLine` — characters and line feeds taken off the text
* `Yaml.Cursor.allow`, `Yaml.Cursor.withKeys` — what may be a key
* `Yaml.indentation`, `Yaml.contents` — the spaces in front of a text, and what is behind them
* `Yaml.Dense` — texts that begin with neither a gap nor a comment

## Main results

* `Yaml.Scan.run_skip`, `Yaml.Scan.run_takeWhile`, … — the changes, one by one
* `Yaml.Scan.run_skipGap_blanks`, `Yaml.Scan.run_skipGap_line` — gaps
-/

namespace PlatformProxy

namespace Yaml

/-! ### The beginning of a line -/

/-- The number of spaces in front of a text. -/
def indentation (text : List Char) : Nat := (text.takeWhile (· = ' ')).length

/-- A text without the spaces in front of it. -/
def contents (text : List Char) : List Char := text.dropWhile (· = ' ')

/-- Neither a gap nor a comment stands in front of a text. -/
def Dense (text : List Char) : Prop :=
  ∀ c ∈ text.head?, c ≠ ' ' ∧ c ≠ '\t' ∧ c ≠ '\n' ∧ c ≠ '\r' ∧ c ≠ '#'

theorem dense_nil : Dense [] := fun _ hc => nomatch hc

theorem dense_cons {c : Char} {rest : List Char} :
    Dense (c :: rest) ↔ c ≠ ' ' ∧ c ≠ '\t' ∧ c ≠ '\n' ∧ c ≠ '\r' ∧ c ≠ '#' :=
  ⟨fun h => h c rfl, fun h _ hc => Option.some.inj hc ▸ h⟩

theorem Dense.head?_ne {text : List Char} (h : Dense text) : text.head? ≠ some ' ' :=
  fun hspace => (h ' ' hspace).1 rfl

theorem Dense.isGap_head? {text : List Char} (h : Dense text) :
    ∀ c ∈ text.head?, isGap .modern (some c) = false := by
  intro c hc
  obtain ⟨hspace, htab, hfeed, hreturn, -⟩ := h c hc
  simp only [isGap, isBlank, isBreak, hspace, htab, hfeed, hreturn, decide_false, Bool.or_self,
    Bool.false_and, reduceCtorEq]

theorem indentation_cons_space (text : List Char) :
    indentation (' ' :: text) = indentation text + 1 := rfl

/-- Spaces come first, or there are none. -/
theorem cases_indentation (text : List Char) :
    (∃ rest, text = ' ' :: rest) ∨ (indentation text = 0 ∧ contents text = text) := by
  cases text with
  | nil => exact .inr ⟨rfl, rfl⟩
  | cons c rest =>
    by_cases hc : c = ' '
    · exact .inl ⟨rest, by rw [hc]⟩
    · exact .inr (by simp [indentation, contents, hc])

theorem blanks_append_contents (text : List Char) :
    List.replicate (indentation text) ' ' ++ contents text = text := by
  have hspaces : text.takeWhile (· = ' ') = List.replicate (indentation text) ' ' :=
    List.eq_replicate_iff.mpr ⟨rfl, fun c hc =>
      of_decide_eq_true (List.all_eq_true.mp List.all_takeWhile c hc)⟩
  rw [← hspaces]
  exact List.takeWhile_append_dropWhile

theorem head?_contents_ne (text : List Char) : (contents text).head? ≠ some ' ' := by
  have hstop := List.head?_dropWhile_not (· = ' ') text
  intro hspace
  rw [contents] at hspace
  rw [hspace] at hstop
  exact absurd hstop (by decide)

theorem drop_indentation (text : List Char) : text.drop (indentation text) = contents text := by
  have hlength : (List.replicate (indentation text) ' ').length = indentation text :=
    List.length_replicate
  calc text.drop (indentation text)
      = (List.replicate (indentation text) ' ' ++ contents text).drop (indentation text) := by
        rw [blanks_append_contents]
    _ = contents text := List.drop_left' hlength

theorem indentation_le_length (text : List Char) : indentation text ≤ text.length :=
  (List.takeWhile_prefix _).length_le

theorem indentation_blanks (n : Nat) {rest : List Char} (h : rest.head? ≠ some ' ') :
    indentation (List.replicate n ' ' ++ rest) = n := by
  induction n with
  | zero =>
    rcases cases_indentation rest with ⟨after, rfl⟩ | ⟨hzero, -⟩
    · exact absurd rfl h
    · exact hzero
  | succ n ih => rw [List.replicate_succ, List.cons_append, indentation_cons_space, ih]

theorem contents_blanks (n : Nat) {rest : List Char} (h : rest.head? ≠ some ' ') :
    contents (List.replicate n ' ' ++ rest) = rest := by
  induction n with
  | zero =>
    rcases cases_indentation rest with ⟨after, rfl⟩ | ⟨-, hself⟩
    · exact absurd rfl h
    · exact hself
  | succ n ih => exact ih

/-! ### Moving on -/

namespace Cursor

variable (s : Cursor)

/-- Characters of a line have been taken off. -/
def advance (n : Nat) : Cursor :=
  { s with
    rest := s.rest.drop n
    mark := ⟨s.mark.index + n, s.mark.line, s.mark.column + n⟩ }

/-- A line feed has been taken off. -/
def breakLine : Cursor :=
  { s with
    rest := s.rest.drop 1
    mark := ⟨s.mark.index + 1, s.mark.line + 1, 0⟩
    atLineStart := true }

/-- Whether a key may come next has been settled. -/
def allow (allowed : Bool) : Cursor := { s with keyAllowed := allowed }

/-- The candidates for keys have been replaced. -/
def withKeys (keys : List KeyCandidate) : Cursor := { s with keys }

theorem advance_zero : s.advance 0 = s := rfl

theorem advance_advance (n m : Nat) : (s.advance n).advance m = s.advance (n + m) := by
  simp [advance, Nat.add_assoc]

theorem length_rest_advance (n : Nat) : (s.advance n).rest.length ≤ s.rest.length :=
  (List.drop_sublist n s.rest).length_le

theorem length_rest_breakLine : s.breakLine.rest.length ≤ s.rest.length :=
  (List.drop_sublist 1 s.rest).length_le

variable {s}

theorem rest_breakLine {rest : List Char} (h : s.rest = '\n' :: rest) : s.breakLine.rest = rest :=
  congrArg (List.drop 1) h

theorem rest_advance_one {c : Char} {rest : List Char} (h : s.rest = c :: rest) :
    (s.advance 1).rest = rest :=
  congrArg (List.drop 1) h

theorem rest_advance {n : Nat} {run rest : List Char} (h : s.rest = run ++ rest)
    (hn : run.length = n) : (s.advance n).rest = rest := by
  rw [advance, h, ← hn, List.drop_left]

end Cursor

namespace Scan

variable {α β : Type} (s : Cursor)

theorem ok_bind (x : α) (f : α → Except Fault β) : (Except.ok x >>= f) = f x := rfl

theorem run_pure (x : α) : (pure x : Scan α).run s = .ok (x, s) := rfl

theorem run_get : (get : Scan Cursor).run s = .ok (s, s) := rfl

theorem run_set (s' : Cursor) : (set s' : Scan PUnit).run s = .ok ((), s') := rfl

theorem run_modify (f : Cursor → Cursor) : (modify f : Scan PUnit).run s = .ok ((), f s) := rfl

theorem run_skip (n : Nat) : (skip n).run s = .ok ((), s.advance n) := rfl

theorem run_peek (n : Nat) : (peek n).run s = .ok (s.rest[n]?, s) := rfl

theorem run_dialect : dialect.run s = .ok (s.dialect, s) := rfl

theorem run_bound : bound.run s = .ok (s.size + 1, s) := rfl

theorem run_column : column.run s = .ok ((s.mark.column : Int), s) := rfl

theorem run_gapAt (n : Nat) : (gapAt n).run s = .ok (isGap s.dialect s.rest[n]?, s) := rfl

theorem run_atLineEnd : atLineEnd.run s = .ok (isLineEnd s.dialect s.rest[0]?, s) := rfl

theorem run_takeWhile (p : Char → Bool) :
    (takeWhile p).run s = .ok (s.rest.takeWhile p, s.advance (s.rest.takeWhile p).length) := rfl

theorem run_emit (t : Token) : (emit t).run s = .ok ((), s.push t) := rfl

theorem run_allowKey (allowed : Bool) :
    (allowKey allowed).run s = .ok ((), s.allow allowed) := rfl

theorem run_insert (number : Nat) (t : Token) :
    (insert number t).run s =
      .ok ((), { s with
        tokens := s.tokens.insertIdx (s.count - number) t
        count := s.count + 1 }) := rfl

theorem run_atDocumentMarker_of_column (h : s.mark.column ≠ 0) :
    atDocumentMarker.run s = .ok (false, s) := by
  simp only [atDocumentMarker, StateT.run_bind, run_get, ok_bind, decide_eq_false h,
    Bool.false_and, run_pure]

theorem run_readBreak {rest : List Char} (h : s.rest = '\n' :: rest) :
    readBreak.run s = .ok (['\n'], s.breakLine) := by
  simp only [readBreak, StateT.run_bind, run_get, ok_bind, h]
  split
  · rename_i hreturn
    cases hreturn
  · rename_i hfeed
    obtain ⟨rfl, rfl⟩ := List.cons.inj hfeed
    have hbreak : s.breakLine = { s with
        rest := List.drop 1 ('\n' :: rest)
        mark := ⟨s.mark.index + 1, s.mark.line + 1, 0⟩
        atLineStart := true } := by
      rw [Cursor.breakLine, h]
    rw [hbreak]
    rfl
  · rename_i hend
    cases hend

/-! ### Gaps -/

variable {s}

theorem run_skipGap_of_dense {fuel : Nat} (hdialect : s.dialect = .modern) (h : Dense s.rest) :
    (skipGap fuel).run s = .ok ((), s) := by
  cases fuel with
  | zero => rfl
  | succ fuel =>
    simp only [skipGap, StateT.run_bind, run_get, ok_bind]
    split
    · rfl
    · rename_i c rest hrest
      rw [hrest] at h
      obtain ⟨hspace, htab, hfeed, hreturn, hnumber⟩ := dense_cons.mp h
      simp only [hdialect, reduceCtorEq, and_false, reduceIte, hspace, htab, false_and, hnumber,
        isBreak, hfeed, hreturn, decide_false, Bool.or_self, Bool.false_and, Bool.false_eq_true,
        run_pure]

theorem run_skipGap_blanks {fuel : Nat} {text : List Char} (hdialect : s.dialect = .modern)
    (hfuel : indentation text < fuel) (hrest : s.rest = text) (htext : Dense (contents text)) :
    (skipGap fuel).run s = .ok ((), s.advance (indentation text)) := by
  induction fuel generalizing s text with
  | zero => omega
  | succ fuel ih =>
    rcases cases_indentation text with ⟨rest, rfl⟩ | ⟨hzero, hself⟩
    · rw [indentation_cons_space] at hfuel ⊢
      have hih := @ih (s.advance 1) rest hdialect (by omega) (by simp [Cursor.advance, hrest])
        htext
      rw [Cursor.advance_advance, Nat.add_comm 1] at hih
      simp only [skipGap, StateT.run_bind, run_get, ok_bind, hrest]
      simp only [Char.reduceEq, false_and, reduceIte, StateT.run_bind, run_skip, ok_bind, hih]
    · rw [hzero, Cursor.advance_zero]
      rw [hself, ← hrest] at htext
      exact run_skipGap_of_dense hdialect htext

/-- The end of a line and the blanks in front of the next one. -/
theorem run_skipGap_line {fuel : Nat} {text : List Char} (hdialect : s.dialect = .modern)
    (hflow : s.flowLevel = 0) (hfuel : text.length + 1 < fuel) (hrest : s.rest = '\n' :: text)
    (htext : Dense (contents text)) :
    (skipGap fuel).run s =
      .ok ((), (s.breakLine.allow true).advance (indentation text)) := by
  cases fuel with
  | zero => omega
  | succ fuel =>
    have hlength := indentation_le_length text
    have hblanks := run_skipGap_blanks (s := s.breakLine.allow true) hdialect
      (show indentation text < fuel by omega) (Cursor.rest_breakLine hrest) htext
    simp only [skipGap, StateT.run_bind, run_get, ok_bind, hrest]
    simp only [Char.reduceEq, false_and, reduceIte, isBreak, decide_true, Bool.true_or, hflow,
      StateT.run_bind, run_readBreak s hrest, ok_bind, run_allowKey]
    exact hblanks

theorem run_skipToLineEnd {text : List Char} (hrest : s.rest = '\n' :: text) :
    skipToLineEnd.run s = .ok ((), s) := by
  have hblanks : s.rest.takeWhile isBlank = [] := by
    rw [hrest]
    rfl
  have hnumber : s.rest[0]? ≠ some '#' := by
    rw [hrest]
    exact fun h => absurd (Option.some.inj h) (by decide)
  simp only [skipToLineEnd, skipComment, StateT.run_bind, run_takeWhile, ok_bind, hblanks,
    List.length_nil, Cursor.advance_zero, run_peek, hnumber, if_false, run_pure]

end Scan

end Yaml

end PlatformProxy
