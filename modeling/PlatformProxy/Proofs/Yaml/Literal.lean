import PlatformProxy.Proofs.Yaml.Plain

/-!
# Reading literal blocks

A literal block is a list of lines, of which those that are not empty stand behind the indentation
of the block. Reading goes back and forth between lines and the empty lines behind them. Whatever
is read, the text so far with the line ends behind it is what the lines say, so that the sign for
the line ends decides alone how much of it is the text.

## Main definitions

* `Yaml.Scan.row` — a line as it is written
* `Yaml.Scan.AtRows` — a reader that stands in front of the contents of a line
* `Yaml.Cursor.Moved` — only the place in the text has changed

## Main results

* `Yaml.Scan.exists_readEmptyLines`, `Yaml.Scan.exists_readBlockLines` — lines
* `Yaml.Scan.exists_fetchLiteral` — a literal block
-/

namespace PlatformProxy

namespace Yaml

/-! ### Places -/

namespace Cursor

/-- Only the place in the text has changed. -/
def Moved (s s' : Cursor) : Prop :=
  s' = { s with rest := s'.rest, mark := s'.mark, atLineStart := s'.atLineStart } ∧
    s'.rest.length ≤ s.rest.length

variable {s s' s'' : Cursor}

theorem moved_advance (s : Cursor) (n : Nat) : s.Moved (s.advance n) :=
  ⟨rfl, s.length_rest_advance n⟩

theorem moved_breakLine (s : Cursor) : s.Moved s.breakLine := ⟨rfl, s.length_rest_breakLine⟩

theorem Moved.trans (h : s.Moved s') (h' : s'.Moved s'') : s.Moved s'' := by
  refine ⟨?_, Nat.le_trans h'.2 h.2⟩
  rw [h'.1, h.1]

theorem Moved.steady {ts : List Token} (h : s.Moved s') (hs : s.Steady ts) : s'.Steady ts := by
  have hlength := h.2
  rw [h.1]
  exact { hs with size := Nat.le_trans hlength hs.size }

theorem Moved.size_eq (h : s.Moved s') : s'.size = s.size := by rw [h.1]

theorem Moved.keyAllowed_eq (h : s.Moved s') : s'.keyAllowed = s.keyAllowed := by rw [h.1]

theorem Moved.isIn {cols : List Nat} (h : s.Moved s') (hs : s.IsIn cols) : s'.IsIn cols := by
  rw [h.1]
  exact hs

end Cursor

namespace Scan

variable {s : Cursor} {n : Nat} {text : List Char}

/-! ### Lines -/

/-- A line of a block as it is written: an empty line is not indented. -/
def row (n : Nat) (line : List Char) : List Char :=
  (if line = [] then [] else List.replicate n ' ' ++ line) ++ ['\n']

/-- The lines of a block as they are written. -/
def rows (n : Nat) (lines : List (List Char)) : List Char := lines.flatMap (row n)

/-- The text of lines. -/
def unlines (lines : List (List Char)) : List Char := lines.flatMap (· ++ ['\n'])

/-- Nothing in a line ends it. -/
def IsLine (line : List Char) : Prop := ∀ c ∈ line, isBreak .modern c = false

/-- A reader stands in front of the contents of the first of the lines, or of what is behind the
block. -/
def AtRows (n : Nat) (text : List Char) (s : Cursor) : List (List Char) → Prop
  | [] => s.rest = contents text ∧ s.mark.column = indentation text
  | line :: lines => line ≠ [] ∧ s.rest = line ++ '\n' :: (rows n lines ++ text) ∧
      s.mark.column = n

theorem rows_cons (line : List Char) (lines : List (List Char)) :
    rows n (line :: lines) = row n line ++ rows n lines := rfl

theorem length_le_length_rows (lines : List (List Char)) :
    lines.length ≤ (rows n lines).length := by
  induction lines with
  | nil => exact Nat.le_refl _
  | cons line lines ih =>
    rw [rows_cons, row, List.length_append, List.length_append, List.length_cons,
      List.length_singleton]
    omega

theorem indentation_take_blanks (n : Nat) (rest : List Char) :
    indentation ((List.replicate n ' ' ++ rest).take n) = n := by
  rw [List.take_left' List.length_replicate, ← List.append_nil (List.replicate n ' '),
    indentation_blanks n (by decide)]

theorem indentation_take (h : indentation text < n) :
    indentation (text.take n) = indentation text := by
  have hsplit : text.take n =
      List.replicate (indentation text) ' ' ++ (contents text).take (n - indentation text) := by
    conv => lhs; rw [← blanks_append_contents text]
    rw [List.take_append, List.length_replicate, List.take_of_length_le]
    rw [List.length_replicate]
    exact Nat.le_of_lt h
  rw [hsplit, indentation_blanks]
  rw [List.head?_take]
  split
  · decide
  · exact head?_contents_ne text

section EmptyLines

variable {k : Nat} (f : Nat) (widest : Int) (breaks : List Char)

/-- One round of reading empty lines: the blanks in front of a line, and then its end, or nothing
more. -/
theorem run_readEmptyLines_round (hdialect : s.dialect = .modern) (hcolumn : s.mark.column = 0)
    (hk : indentation (s.rest.take n) = k) :
    (readEmptyLines (some n) (f + 1) widest breaks).run s =
      if (s.advance k).rest.head?.any (isBreak .modern) then
        (do
          let b ← readBreak
          readEmptyLines (some n) f (max widest k) (breaks ++ b)).run (s.advance k)
      else .ok ((max widest k, breaks), s.advance k) := by
  have htake : (s.rest.take ((n : Int) - (s.mark.column : Int)).toNat).takeWhile (· = ' ') =
      (s.rest.take n).takeWhile (· = ' ') := by
    rw [hcolumn, Int.natCast_zero, Int.sub_zero, Int.toNat_natCast]
  rw [indentation] at hk
  have hcolumn' : ((s.advance k).mark.column : Int) = k := by
    simp only [Cursor.advance, hcolumn, Nat.zero_add]
  have hdialect' : (s.advance k).dialect = .modern := hdialect
  simp only [readEmptyLines, StateT.run_bind, run_get, ok_bind, htake, hk,
    run_skip, run_column, hcolumn', run_dialect, hdialect', run_peek, ← List.head?_eq_getElem?]
  cases (s.advance k).rest.head? with
  | none => rfl
  | some c =>
    simp only [reduceCtorEq, and_false, if_false, Option.any_some]
    split <;> rfl

/-- An empty line. -/
theorem run_readEmptyLines_break {after : List Char} (hdialect : s.dialect = .modern)
    (hcolumn : s.mark.column = 0) (hrest : s.rest = '\n' :: after) :
    (readEmptyLines (some n) (f + 1) widest breaks).run s =
      (readEmptyLines (some n) f (max widest 0) (breaks ++ ['\n'])).run s.breakLine := by
  have hzero : indentation (s.rest.take n) = 0 := by
    rw [hrest]
    cases n <;> rfl
  have hbreak : (s.advance 0).rest.head?.any (isBreak .modern) = true := by
    rw [Cursor.advance_zero, hrest]
    rfl
  rw [run_readEmptyLines_round f widest breaks hdialect hcolumn hzero, if_pos hbreak,
    Cursor.advance_zero]
  simp only [StateT.run_bind, run_readBreak s hrest, ok_bind, Int.natCast_zero]

/-- The next line is not empty, or the block is over. -/
theorem run_readEmptyLines_stop (hdialect : s.dialect = .modern) (hcolumn : s.mark.column = 0)
    (hk : indentation (s.rest.take n) = k)
    (hstop : (s.advance k).rest.head?.any (isBreak .modern) = false) :
    (readEmptyLines (some n) (f + 1) widest breaks).run s =
      .ok ((max widest k, breaks), s.advance k) := by
  rw [run_readEmptyLines_round f widest breaks hdialect hcolumn hk, hstop,
    if_neg Bool.false_ne_true]

/-- There are no more lines. -/
theorem exists_readEmptyLines_end (hdialect : s.dialect = .modern) (hcolumn : s.mark.column = 0)
    (hrest : s.rest = text) (hleft : indentation text < n) (htext : Dense (contents text)) :
    ∃ s' widest', (readEmptyLines (some n) (f + 1) widest breaks).run s =
        .ok ((widest', breaks), s') ∧ s.Moved s' ∧ AtRows n text s' [] := by
  have hrest' : (s.advance (indentation text)).rest = contents text := by
    rw [← drop_indentation, ← hrest]
    rfl
  have hstop : (s.advance (indentation text)).rest.head?.any (isBreak .modern) = false := by
    rw [hrest', Option.any_eq_false]
    exact fun c hc => (Bool.or_eq_false_iff.mp (htext.isGap_head? c hc)).2
  have hcolumn' : (s.advance (indentation text)).mark.column = indentation text := by
    simp only [Cursor.advance, hcolumn, Nat.zero_add]
  have hread := run_readEmptyLines_stop f widest breaks hdialect hcolumn
    (by rw [hrest]; exact indentation_take hleft) hstop
  exact ⟨_, _, hread, s.moved_advance _, hrest', hcolumn'⟩

/-- The next line is not empty. -/
theorem exists_readEmptyLines_line {line : List Char} {lines : List (List Char)}
    (hdialect : s.dialect = .modern) (hcolumn : s.mark.column = 0) (hline : IsLine line)
    (hne : line ≠ []) (hrest : s.rest = rows n (line :: lines) ++ text) :
    ∃ s' widest', (readEmptyLines (some n) (f + 1) widest breaks).run s =
        .ok ((widest', breaks), s') ∧ s.Moved s' ∧ AtRows n text s' (line :: lines) := by
  have hrest : s.rest = List.replicate n ' ' ++ (line ++ '\n' :: (rows n lines ++ text)) := by
    rw [hrest, rows_cons, row, if_neg hne]
    simp only [List.append_assoc, List.cons_append, List.nil_append]
  have hrest' := Cursor.rest_advance hrest List.length_replicate
  have hstop : (s.advance n).rest.head?.any (isBreak .modern) = false := by
    rw [hrest', List.head?_append_of_ne_nil line hne, Option.any_eq_false]
    exact fun c hc => hline c (List.mem_of_mem_head? hc)
  have hcolumn' : (s.advance n).mark.column = n := by
    simp only [Cursor.advance, hcolumn, Nat.zero_add]
  have hread := run_readEmptyLines_stop f widest breaks hdialect hcolumn
    (by rw [hrest]; exact indentation_take_blanks n _) hstop
  exact ⟨_, _, hread, s.moved_advance _, hne, hrest', hcolumn'⟩

end EmptyLines

/-- Empty lines are read up to the first line that is not empty. -/
theorem exists_readEmptyLines (lines : List (List Char)) {fuel : Nat} (widest : Int)
    (breaks : List Char) (hdialect : s.dialect = .modern) (hlines : ∀ l ∈ lines, IsLine l)
    (hcolumn : s.mark.column = 0) (hrest : s.rest = rows n lines ++ text)
    (hfuel : lines.length < fuel) (hleft : indentation text < n) (htext : Dense (contents text)) :
    ∃ s' widest' k later, lines = List.replicate k [] ++ later ∧
      (readEmptyLines (some n) fuel widest breaks).run s =
        .ok ((widest', breaks ++ List.replicate k '\n'), s') ∧
      s.Moved s' ∧ AtRows n text s' later := by
  induction lines generalizing s fuel widest breaks with
  | nil =>
    cases fuel with
    | zero => exact absurd hfuel (Nat.not_lt_zero _)
    | succ fuel =>
      obtain ⟨s', widest', hread, hmoved, hat⟩ :=
        exists_readEmptyLines_end fuel widest breaks hdialect hcolumn hrest hleft htext
      exact ⟨s', widest', 0, [], rfl, by rw [hread, List.replicate_zero, List.append_nil], hmoved,
        hat⟩
  | cons line lines ih =>
    cases fuel with
    | zero => exact absurd hfuel (Nat.not_lt_zero _)
    | succ fuel =>
      obtain ⟨hline, hlater⟩ := List.forall_mem_cons.mp hlines
      by_cases hempty : line = []
      · subst hempty
        have hrest : s.rest = '\n' :: (rows n lines ++ text) := hrest
        obtain ⟨s', widest', k, later, rfl, hread, hmoved, hat⟩ := ih (s := s.breakLine)
          (max widest 0) (breaks ++ ['\n']) hdialect hlater rfl (Cursor.rest_breakLine hrest)
          (Nat.lt_of_succ_lt_succ hfuel)
        refine ⟨s', widest', k + 1, later, rfl, ?_, s.moved_breakLine.trans hmoved, hat⟩
        rw [run_readEmptyLines_break fuel widest breaks hdialect hcolumn hrest, hread,
          List.append_assoc]
        rfl
      · obtain ⟨s', widest', hread, hmoved, hat⟩ :=
          exists_readEmptyLines_line fuel widest breaks hdialect hcolumn hline hempty hrest
        exact ⟨s', widest', 0, line :: lines, rfl,
          by rw [hread, List.replicate_zero, List.append_nil], hmoved, hat⟩

/-! ### Blocks -/

/-- What a block says so far: the text, and the line ends behind it. -/
def BlockText.all (b : BlockText) : List Char := b.text ++ b.lastBreak ++ b.emptyLines

theorem unlines_replicate (k : Nat) :
    unlines (List.replicate k []) = List.replicate k '\n' := by
  rw [unlines, List.flatMap_replicate, List.nil_append, List.flatten_replicate_singleton]

theorem unlines_append (lines later : List (List Char)) :
    unlines (lines ++ later) = unlines lines ++ unlines later :=
  List.flatMap_append

theorem all_line (b : BlockText) (line : List Char) (k : Nat) (wasBlank : Bool) :
    BlockText.all ⟨b.text ++ (b.lastBreak ++ b.emptyLines) ++ line, ['\n'],
      List.replicate k '\n', wasBlank⟩ = b.all ++ unlines (line :: List.replicate k []) := by
  rw [unlines, List.flatMap_cons, ← unlines, unlines_replicate]
  simp only [BlockText.all, List.append_assoc]

theorem run_readBlockLines_end {fuel : Nat} {b : BlockText} (hat : AtRows n text s [])
    (hleft : indentation text < n) : (readBlockLines false n fuel b).run s = .ok (b, s) := by
  cases fuel with
  | zero => rfl
  | succ fuel =>
    have hcolumn : (s.mark.column : Int) ≠ n := by
      rw [hat.2]
      omega
    simp only [readBlockLines, StateT.run_bind, run_get, ok_bind]
    split
    · rfl
    · rw [if_pos hcolumn]
      rfl

/-- One line of a block and the empty lines behind it. -/
theorem exists_readBlockLines_line {line : List Char} {lines : List (List Char)}
    (hdialect : s.dialect = .modern) (hlines : ∀ l ∈ line :: lines, IsLine l)
    (hat : AtRows n text s (line :: lines)) (hsize : s.rest.length ≤ s.size)
    (hleft : indentation text < n) (htext : Dense (contents text)) :
    ∃ s' k later, lines = List.replicate k [] ++ later ∧ s.Moved s' ∧ AtRows n text s' later ∧
      ∀ (fuel : Nat) (b : BlockText), ∃ wasBlank,
        (readBlockLines false n (fuel + 1) b).run s =
          (readBlockLines false n fuel ⟨b.text ++ (b.lastBreak ++ b.emptyLines) ++ line, ['\n'],
            List.replicate k '\n', wasBlank⟩).run s' := by
  obtain ⟨hne, hrest, hcolumn⟩ := hat
  obtain ⟨hline, hlater⟩ := List.forall_mem_cons.mp hlines
  have htake : s.rest.takeWhile (fun c => !isBreak s.dialect c) = line := by
    rw [hrest, hdialect, List.takeWhile_append_of_pos fun c hc => by rw [hline c hc]; rfl]
    exact List.append_nil line
  have hbreak := Cursor.rest_advance hrest rfl
  have hlength : lines.length < s.size + 1 := by
    have hrows := length_le_length_rows (n := n) lines
    rw [hrest, List.length_append, List.length_cons, List.length_append] at hsize
    omega
  obtain ⟨s', widest, k, later, rfl, hread, hmoved, hat⟩ :=
    exists_readEmptyLines (s := (s.advance line.length).breakLine) lines 0 [] hdialect hlater rfl
      (Cursor.rest_breakLine hbreak) hlength hleft htext
  refine ⟨s', k, later, rfl,
    ((s.moved_advance _).trans (Cursor.moved_breakLine _)).trans hmoved, hat, fun fuel b => ?_⟩
  obtain ⟨c, line, rfl⟩ := List.exists_cons_of_ne_nil hne
  refine ⟨isBlank c, ?_⟩
  have hcolumn' : ¬ (s.mark.column : Int) ≠ n := by
    rw [hcolumn]
    exact fun h => h rfl
  have hsize : ((s.advance (c :: line).length).breakLine).size = s.size := rfl
  have hhead : s.rest = c :: (line ++ '\n' :: (rows n (List.replicate k [] ++ later) ++ text)) :=
    hrest
  rw [hhead] at htake
  simp only [readBlockLines, StateT.run_bind, run_get, ok_bind, hhead, hcolumn', if_false,
    Bool.false_and, Bool.false_eq_true, run_takeWhile, htake, run_readBreak _ hbreak, run_bound,
    hsize, hread, List.nil_append]

/-- The lines of a block are read one by one. -/
theorem exists_readBlockLines (fuel : Nat) (b : BlockText) {lines : List (List Char)}
    (hdialect : s.dialect = .modern) (hlines : ∀ l ∈ lines, IsLine l)
    (hat : AtRows n text s lines) (hsize : s.rest.length ≤ s.size) (hfuel : lines.length < fuel)
    (hleft : indentation text < n) (htext : Dense (contents text)) :
    ∃ b' s', (readBlockLines false n fuel b).run s = .ok (b', s') ∧ s.Moved s' ∧
      AtRows n text s' [] ∧ b'.all = b.all ++ unlines lines ∧
      (lines ≠ [] → lines.getLast? ≠ some [] → b'.lastBreak = ['\n'] ∧ b'.emptyLines = []) := by
  induction fuel generalizing s lines b with
  | zero => exact absurd hfuel (Nat.not_lt_zero _)
  | succ fuel ih =>
    cases lines with
    | nil =>
      exact ⟨b, s, run_readBlockLines_end hat hleft, ⟨rfl, Nat.le_refl _⟩, hat,
        (List.append_nil _).symm, fun h => absurd rfl h⟩
    | cons line lines =>
      obtain ⟨s₁, k, later, rfl, hmoved, hat, hstep⟩ :=
        exists_readBlockLines_line hdialect hlines hat hsize hleft htext
      obtain ⟨wasBlank, hstep⟩ := hstep fuel b
      cases later with
      | nil =>
        refine ⟨_, s₁, hstep.trans (run_readBlockLines_end hat hleft), hmoved, hat, ?_, ?_⟩
        · rw [all_line, List.append_nil]
        · intro _ hlast
          cases k with
          | zero => exact ⟨rfl, rfl⟩
          | succ k =>
            rw [List.append_nil, List.replicate_succ', ← List.cons_append,
              List.getLast?_concat] at hlast
            exact absurd rfl hlast
      | cons next later =>
        have hsize₁ : s₁.rest.length ≤ s₁.size := by
          rw [hmoved.1]
          exact Nat.le_trans hmoved.2 hsize
        have hdialect₁ : s₁.dialect = .modern := by
          rw [hmoved.1]
          exact hdialect
        have hlines₁ : ∀ l ∈ next :: later, IsLine l := fun l hl =>
          hlines l (List.mem_cons_of_mem _ (List.mem_append_right _ hl))
        rw [List.length_cons, List.length_append] at hfuel
        obtain ⟨b', s', hread, hmoved', hat', hall, hlast⟩ :=
          ih _ hdialect₁ hlines₁ hat hsize₁ (by omega)
        refine ⟨b', s', hstep.trans hread, hmoved.trans hmoved', hat', ?_, fun _ hne => ?_⟩
        · rw [hall, all_line, List.append_assoc, ← unlines_append, List.cons_append]
        · rw [← List.cons_append, List.getLast?_append_of_ne_nil _ (List.cons_ne_nil _ _)] at hne
          exact hlast (List.cons_ne_nil _ _) hne

/-! ### The header -/

/-- The sign for what happens to the line ends after a block. -/
def Chomping.sign : Chomping → List Char
  | strip => ['-']
  | clip => []
  | keep => ['+']

/-- The header: the number of columns, if it is given, and the sign for the line ends. -/
def header (explicit : Bool) (chomping : Chomping) : List Char :=
  (if explicit then ['2'] else []) ++ chomping.sign

theorem run_readBlockHeader {explicit : Bool} {chomping : Chomping} {after : List Char}
    (hrest : s.rest = header explicit chomping ++ '\n' :: after) :
    readBlockHeader.run s =
      .ok ((chomping, if explicit then 2 else 0),
        s.advance (header explicit chomping).length) := by
  -- Each of the six headers is read by the branches its own signs choose.
  cases explicit <;> cases chomping <;>
    (simp only [header, Chomping.sign, if_true, if_false, Bool.false_eq_true, List.nil_append,
      List.cons_append] at hrest
     have hrest' := Cursor.rest_advance_one hrest
     simp [readBlockHeader, run_peek, ok_bind, hrest, run_skip, hrest', header, Chomping.sign,
      Cursor.advance_advance] <;> rfl)

/-! ### Literal blocks -/

/-- What is kept of a block. -/
def Chomping.apply (b : BlockText) : Chomping → List Char
  | strip => b.text
  | clip => b.text ++ b.lastBreak
  | keep => b.all

/-- Without a number in the header, the first line gives the indentation. -/
theorem run_readEmptyLines_unknown {line after : List Char} (f : Nat)
    (hdialect : s.dialect = .modern) (hcolumn : s.mark.column = 0) (hline : IsLine line)
    (hne : line ≠ []) (hspace : line.head? ≠ some ' ')
    (hrest : s.rest = List.replicate n ' ' ++ (line ++ after)) :
    (readEmptyLines none (f + 1) 0 []).run s = .ok (((n : Int), []), s.advance n) := by
  obtain ⟨c, line, rfl⟩ := List.exists_cons_of_ne_nil hne
  have hblanks : (s.rest.takeWhile (· = ' ')).length = n := by
    rw [hrest]
    exact indentation_blanks n hspace
  have hpeek : (s.advance n).rest[0]? = some c := by
    rw [Cursor.rest_advance hrest List.length_replicate]
    rfl
  have hcolumn' : ((s.advance n).mark.column : Int) = n := by
    simp only [Cursor.advance, hcolumn, Nat.zero_add]
  have hdialect' : (s.advance n).dialect = .modern := hdialect
  have hmax : max (0 : Int) n = n := Int.max_eq_right (Int.natCast_nonneg n)
  simp only [readEmptyLines, StateT.run_bind, run_get, ok_bind, hblanks, run_skip, run_column,
    hcolumn', run_dialect, hdialect', run_peek, hpeek, hline c List.mem_cons_self, reduceCtorEq,
    and_false, Bool.false_eq_true, if_false, hmax, run_pure]

/-- The first empty lines of a block, whether its indentation is given or not. -/
theorem exists_readEmptyLines_first {explicit : Bool} {column : Nat} {lines : List (List Char)}
    (hdialect : s.dialect = .modern) (hcolumn : s.mark.column = 0)
    (hsize : s.rest.length ≤ s.size) (hrest : s.rest = rows (column + 2) lines ++ text)
    (hlines : ∀ l ∈ lines, IsLine l)
    (hfirst : explicit = false →
      ∃ line later, lines = line :: later ∧ line ≠ [] ∧ line.head? ≠ some ' ')
    (htext : Cursor.Resumes column text) :
    ∃ s' widest k later, lines = List.replicate k [] ++ later ∧
      (readEmptyLines (if explicit then some ((column + 2 : Nat) : Int) else none) (s.size + 1) 0
        []).run s = .ok ((widest, List.replicate k '\n'), s') ∧
      (explicit = false → widest = (column + 2 : Nat)) ∧ s.Moved s' ∧
      AtRows (column + 2) text s' later := by
  have hleft : indentation text < column + 2 := Nat.lt_of_le_of_lt htext.left (by omega)
  cases explicit with
  | true =>
    have hlength : lines.length < s.size + 1 := by
      have hrows := length_le_length_rows (n := column + 2) lines
      rw [hrest, List.length_append] at hsize
      omega
    obtain ⟨s', widest, k, later, hsplit, hread, hmoved, hat⟩ :=
      exists_readEmptyLines lines 0 [] hdialect hlines hcolumn hrest hlength hleft htext.dense
    exact ⟨s', widest, k, later, hsplit, hread, nofun, hmoved, hat⟩
  | false =>
    obtain ⟨line, later, rfl, hne, hspace⟩ := hfirst rfl
    have hrest : s.rest = List.replicate (column + 2) ' ' ++
        (line ++ '\n' :: (rows (column + 2) later ++ text)) := by
      rw [hrest, rows_cons, row, if_neg hne]
      simp only [List.append_assoc, List.cons_append, List.nil_append]
    have hread := run_readEmptyLines_unknown s.size hdialect hcolumn
      (hlines line List.mem_cons_self) hne hspace hrest
    have hcolumn' : (s.advance (column + 2)).mark.column = column + 2 := by
      simp only [Cursor.advance, hcolumn, Nat.zero_add]
    exact ⟨_, _, 0, line :: later, rfl, hread, fun _ => rfl, s.moved_advance _, hne,
      Cursor.rest_advance hrest List.length_replicate, hcolumn'⟩

/-- The reader in front of the first line of a block. -/
def belowHeader (explicit : Bool) (chomping : Chomping) (cols : List Nat) (s : Cursor) : Cursor :=
  ((s.advance 1).advance (header explicit chomping).length).breakLine.within cols

section Header

variable {explicit : Bool} {chomping : Chomping} {cols : List Nat} {c : Char} {after : List Char}

theorem steady_belowHeader {ts : List Token} (h : s.Steady ts) :
    (belowHeader explicit chomping cols s).Steady ts :=
  ((h.advance 1).advance _).breakLine.within _

theorem rest_belowHeader (cols : List Nat)
    (h : s.rest = c :: (header explicit chomping ++ '\n' :: after)) :
    (belowHeader explicit chomping cols s).rest = after :=
  Cursor.rest_breakLine (Cursor.rest_advance (Cursor.rest_advance_one h) rfl)

/-- Below its header a block is read in two steps: the empty lines in front, which show the
indentation if it is not given, and the lines. -/
theorem run_readBlockScalar {column : Nat} {widest : Int} {breaks : List Char} {b : BlockText}
    {s' s'' : Cursor} (hdialect : s.dialect = .modern)
    (hblocks : s.IsIn (column :: cols) ∨ s.IsPast (column :: cols))
    (hrest : s.rest = c :: (header explicit chomping ++ '\n' :: after))
    (hempty : (readEmptyLines (if explicit then some ((column + 2 : Nat) : Int) else none)
      (s.size + 1) 0 []).run (belowHeader explicit chomping (column :: cols) s) =
        .ok ((widest, breaks), s'))
    (hwidest : explicit = false → widest = (column + 2 : Nat))
    (hlines : (readBlockLines false (column + 2 : Nat) (s'.size + 1)
      ⟨[], [], breaks, false⟩).run s' = .ok (b, s'')) :
    (readBlockScalar false).run s = .ok (chomping.apply b, s'') := by
  have hheader := Cursor.rest_advance_one hrest
  have hend := Cursor.rest_advance hheader rfl
  have hlineEnd : isLineEnd ((s.advance 1).advance (header explicit chomping).length).dialect
      ((s.advance 1).advance (header explicit chomping).length).rest[0]? = true := by
    rw [hend]
    exact congrArg (isLineEnd · (some '\n')) hdialect
  have hunroll : unrollColumns.run
      ((s.advance 1).advance (header explicit chomping).length).breakLine =
        .ok ((), belowHeader explicit chomping (column :: cols) s) := run_unrollColumns hblocks
  have hindent : (belowHeader explicit chomping (column :: cols) s).indent = column := rfl
  have hsize : (belowHeader explicit chomping (column :: cols) s).size = s.size := rfl
  have hgiven : (if (if explicit = true then 2 else 0) = 0 then none
      else some (if (0 : Int) ≤ column then
        (column : Int) + (if explicit = true then 2 else 0 : Nat)
        else (if explicit = true then 2 else 0 : Nat))) =
      if explicit = true then some ((column + 2 : Nat) : Int) else none := by
    cases explicit with
    | true => simp
    | false => rfl
  have hcolumn : (if explicit = true then some ((column + 2 : Nat) : Int) else none).getD
      (max widest (max ((column : Int) + 1) 1)) = (column + 2 : Nat) := by
    cases explicit with
    | true => rfl
    | false =>
      simp only [Bool.false_eq_true, if_false, Option.getD_none, hwidest rfl]
      omega
  simp only [readBlockScalar, StateT.run_bind, run_skip, ok_bind, run_readBlockHeader hheader,
    run_skipToLineEnd hend, run_atLineEnd, hlineEnd, Bool.not_true, Bool.false_eq_true, if_false,
    run_readBreak _ hend, hunroll, run_get, hindent, hsize, run_bound, hgiven, hempty, hcolumn,
    hlines]
  cases chomping <;> rfl

end Header

/-- Where the last of some lines is not empty, it stands behind the empty lines in front. -/
theorem getLast?_behind_empty {k : Nat} {later : List (List Char)}
    (hne : List.replicate k [] ++ later ≠ [])
    (hlast : (List.replicate k [] ++ later).getLast? ≠ some []) :
    later ≠ [] ∧ later.getLast? ≠ some [] := by
  cases later with
  | nil =>
    cases k with
    | zero => exact absurd rfl hne
    | succ k =>
      rw [List.append_nil, List.replicate_succ', List.getLast?_concat] at hlast
      exact absurd rfl hlast
  | cons line later =>
    rw [List.getLast?_append_of_ne_nil _ (List.cons_ne_nil _ _)] at hlast
    exact ⟨List.cons_ne_nil _ _, hlast⟩

/-- The lines of a literal block are read behind its header. -/
theorem exists_readBlockScalar {explicit : Bool} {chomping : Chomping} {c : Char} {column : Nat}
    {cols : List Nat} {ts : List Token} {lines : List (List Char)} (hsteady : s.Steady ts)
    (hblocks : s.IsIn (column :: cols) ∨ s.IsPast (column :: cols))
    (hrest : s.rest = c :: (header explicit chomping ++ '\n' :: (rows (column + 2) lines ++ text)))
    (hlines : ∀ l ∈ lines, IsLine l)
    (hfirst : explicit = false →
      ∃ line later, lines = line :: later ∧ line ≠ [] ∧ line.head? ≠ some ' ')
    (htext : Cursor.Resumes column text) :
    ∃ b s', (readBlockScalar false).run s = .ok (chomping.apply b, s') ∧ s'.Steady ts ∧
      s'.IsIn (column :: cols) ∧ s'.keyAllowed = s.keyAllowed ∧ AtRows (column + 2) text s' [] ∧
      b.all = unlines lines ∧
      (lines ≠ [] → lines.getLast? ≠ some [] → b.lastBreak = ['\n'] ∧ b.emptyLines = []) := by
  have hleft : indentation text < column + 2 := Nat.lt_of_le_of_lt htext.left (by omega)
  have hsteady₁ : (belowHeader explicit chomping (column :: cols) s).Steady ts :=
    steady_belowHeader hsteady
  have hrest₁ := rest_belowHeader (column :: cols) hrest
  obtain ⟨s', widest, k, later, rfl, hempty, hwidest, hmoved, hat⟩ :=
    exists_readEmptyLines_first hsteady₁.dialect rfl hsteady₁.size hrest₁ hlines hfirst htext
  have hsteady' := hmoved.steady hsteady₁
  have hlater : ∀ l ∈ later, IsLine l := fun l hl => hlines l (List.mem_append_right _ hl)
  have hlength : later.length < s'.size + 1 := by
    have hrows := length_le_length_rows (n := column + 2) (List.replicate k [] ++ later)
    have hsize := hsteady₁.size
    rw [hrest₁, List.length_append] at hsize
    rw [List.length_append] at hrows
    rw [hmoved.size_eq]
    omega
  obtain ⟨b, s'', hread, hmoved', hat', hall, hlast⟩ := exists_readBlockLines
    (s'.size + 1) ⟨[], [], List.replicate k '\n', false⟩ hsteady'.dialect hlater hat hsteady'.size
    hlength hleft htext.dense
  refine ⟨b, s'', run_readBlockScalar hsteady.dialect hblocks hrest hempty hwidest hread,
    hmoved'.steady hsteady', hmoved'.isIn (hmoved.isIn (Cursor.isIn_within _ _)), ?_, hat', ?_, ?_⟩
  · rw [hmoved'.keyAllowed_eq, hmoved.keyAllowed_eq]
    rfl
  · rw [hall, unlines_append, unlines_replicate]
    rfl
  · intro hne hne_nil
    obtain ⟨hlater_ne, hlater_last⟩ := getLast?_behind_empty hne hne_nil
    exact hlast hlater_ne hlater_last

/-! ### The lines of a text -/

theorem exists_lines (cs : List Char) :
    ∃ lines, cs ++ ['\n'] = unlines lines ∧ lines ≠ [] ∧
      ∀ l ∈ lines, ∀ c ∈ l, c ∈ cs ∧ c ≠ '\n' := by
  induction cs with
  | nil => exact ⟨[[]], rfl, List.cons_ne_nil _ _, fun l hl c hc => by simp_all⟩
  | cons c cs ih =>
    obtain ⟨lines, hlines, hne, hchars⟩ := ih
    have hcons : ∀ l ∈ lines, ∀ d ∈ l, d ∈ c :: cs ∧ d ≠ '\n' :=
      fun l hl d hd => ⟨List.mem_cons_of_mem _ (hchars l hl d hd).1, (hchars l hl d hd).2⟩
    by_cases hc : c = '\n'
    · refine ⟨[] :: lines, ?_, List.cons_ne_nil _ _, List.forall_mem_cons.mpr ⟨nofun, hcons⟩⟩
      rw [List.cons_append, hlines, hc]
      rfl
    · obtain ⟨line, later, rfl⟩ := List.exists_cons_of_ne_nil hne
      obtain ⟨hline, hlater⟩ := List.forall_mem_cons.mp hcons
      refine ⟨(c :: line) :: later, ?_, List.cons_ne_nil _ _, List.forall_mem_cons.mpr
        ⟨List.forall_mem_cons.mpr ⟨⟨List.mem_cons_self, hc⟩, hline⟩, hlater⟩⟩
      rw [List.cons_append, hlines]
      rfl

/-- The last line of a text that does not end with a line end is not empty. -/
theorem getLast?_lines_ne {cs : List Char} {lines : List (List Char)}
    (h : cs ++ ['\n'] = unlines lines) (hlast : cs.getLast? ≠ some '\n') (hne : cs ≠ []) :
    lines.getLast? ≠ some [] := by
  intro hempty
  obtain ⟨before, rfl⟩ := List.getLast?_eq_some_iff.mp hempty
  rw [unlines_append] at h
  have hcs : cs = unlines before := List.append_cancel_right h
  rcases List.eq_nil_or_concat before with rfl | ⟨before, line, rfl⟩
  · exact hne hcs
  · have hline : unlines [line] = line ++ ['\n'] := List.append_nil _
    rw [List.concat_eq_append, unlines_append, hline, ← List.append_assoc] at hcs
    apply hlast
    rw [hcs, List.getLast?_concat]

/-! ### How a block is written -/

theorem literalChars_append (n : Nat) (afterBreak : Bool) (cs : List Char) :
    literalChars n afterBreak (cs ++ ['\n']) = literalChars n afterBreak cs ++ ['\n'] := by
  induction cs generalizing afterBreak with
  | nil => rfl
  | cons c cs ih =>
    rw [List.cons_append, literalChars, literalChars]
    split
    · rw [ih, List.cons_append]
    · rw [ih, List.append_assoc, List.cons_append]

theorem literalChars_line {n : Nat} {line after : List Char} (h : ∀ c ∈ line, endsLine c = false) :
    literalChars n false (line ++ '\n' :: after) = line ++ '\n' :: literalChars n true after := by
  induction line with
  | nil => rfl
  | cons c line ih =>
    obtain ⟨hc, hline⟩ := List.forall_mem_cons.mp h
    rw [List.cons_append, literalChars, if_neg (by rw [hc]; exact Bool.false_ne_true), ih hline]
    rfl

theorem literalChars_unlines {n : Nat} {lines : List (List Char)}
    (h : ∀ l ∈ lines, ∀ c ∈ l, endsLine c = false) :
    literalChars n true (unlines lines) = rows n lines := by
  induction lines with
  | nil => rfl
  | cons line lines ih =>
    obtain ⟨hline, hlines⟩ := List.forall_mem_cons.mp h
    have hunlines : unlines (line :: lines) = line ++ '\n' :: unlines lines := by
      rw [unlines, List.flatMap_cons, List.append_assoc]
      rfl
    rw [hunlines, rows_cons, row, ← ih hlines]
    cases line with
    | nil => rfl
    | cons c line =>
      obtain ⟨hc, hline⟩ := List.forall_mem_cons.mp hline
      rw [List.cons_append, literalChars, if_neg (by rw [hc]; exact Bool.false_ne_true),
        literalChars_line hline, if_neg (List.cons_ne_nil _ _), if_pos rfl]
      simp only [blanks, List.append_assoc, List.cons_append, List.nil_append]

theorem chompingSign_of_not {d : List Char} {x : Char} (h : endsLine x = false) :
    chompingSign (d ++ [x]) = ['-'] := by
  simp only [chompingSign, List.reverse_append, List.reverse_singleton, List.singleton_append, h,
    Bool.not_false, if_true]

theorem chompingSign_of_endsLine {d : List Char} {x y : Char} (h : endsLine x = true) :
    chompingSign (d ++ [y] ++ [x]) = if endsLine y then ['+'] else [] := by
  simp only [chompingSign, List.reverse_append, List.reverse_singleton, List.singleton_append, h,
    Bool.not_true, Bool.false_eq_true, if_false]

/-- How much of a block is text is decided by the end of the text. -/
theorem exists_chomping {cs : List Char} (hne : cs ≠ [])
    (hends : ∀ c ∈ cs, endsLine c = true → c = '\n') :
    ∃ chomping lines, chompingSign cs = Chomping.sign chomping ∧ lines ≠ [] ∧
      cs ++ (if cs.getLast?.any endsLine then [] else ['\n']) = unlines lines ∧
      (∀ l ∈ lines, ∀ c ∈ l, endsLine c = false) ∧
      ∀ b : BlockText, b.all = unlines lines →
        (lines.getLast? ≠ some [] → b.lastBreak = ['\n'] ∧ b.emptyLines = []) →
        chomping.apply b = cs := by
  have hline : ∀ {lines : List (List Char)} {d : List Char},
      (∀ c ∈ d, c ∈ cs) → (∀ l ∈ lines, ∀ c ∈ l, c ∈ d ∧ c ≠ '\n') →
        ∀ l ∈ lines, ∀ c ∈ l, endsLine c = false := by
    intro lines d hd hchars l hl c hc
    obtain ⟨hmem, hne⟩ := hchars l hl c hc
    exact Bool.eq_false_iff.mpr fun hend => hne (hends c (hd c hmem) hend)
  obtain ⟨d, x, hsplit⟩ := (List.eq_nil_or_concat cs).resolve_left hne
  rw [List.concat_eq_append] at hsplit
  subst hsplit
  have hx : x ∈ d ++ [x] := List.mem_append_right _ List.mem_cons_self
  rw [List.getLast?_concat, Option.any_some]
  by_cases hend : endsLine x = true
  · obtain rfl := hends x hx hend
    obtain ⟨lines, hlines, hlines_ne, hchars⟩ := exists_lines d
    have hlines' := hline (fun c hc => List.mem_append_left _ hc) hchars
    rw [if_pos hend, List.append_nil]
    have hkeep : ∀ b : BlockText, b.all = unlines lines → Chomping.keep.apply b = d ++ ['\n'] :=
      fun b hall => hall.trans hlines.symm
    rcases List.eq_nil_or_concat d with rfl | ⟨e, y, rfl⟩
    · exact ⟨.keep, lines, rfl, hlines_ne, hlines, hlines', fun b hall _ => hkeep b hall⟩
    · rw [List.concat_eq_append] at hlines hkeep ⊢
      rw [chompingSign_of_endsLine hend]
      by_cases hy : endsLine y = true
      · exact ⟨.keep, lines, if_pos hy, hlines_ne, hlines, hlines', fun b hall _ => hkeep b hall⟩
      · refine ⟨.clip, lines, if_neg hy, hlines_ne, hlines, hlines', fun b hall hlast => ?_⟩
        · have hlast_ne : (e ++ [y]).getLast? ≠ some '\n' := by
            rw [List.getLast?_concat]
            intro h
            exact hy (by rw [Option.some.inj h]; rfl)
          obtain ⟨-, hempty⟩ := hlast (getLast?_lines_ne hlines hlast_ne
            (List.append_ne_nil_of_right_ne_nil _ (List.cons_ne_nil _ _)))
          rw [BlockText.all, hempty, List.append_nil] at hall
          exact hall.trans hlines.symm
  · obtain ⟨lines, hlines, hlines_ne, hchars⟩ := exists_lines (d ++ [x])
    refine ⟨.strip, lines, ?_, hlines_ne, ?_, hline (fun c hc => hc) hchars, fun b hall hlast => ?_⟩
    · exact chompingSign_of_not (Bool.eq_false_iff.mpr hend)
    · rw [if_neg hend, hlines]
    · have hlast_ne : (d ++ [x]).getLast? ≠ some '\n' := by
        rw [List.getLast?_concat]
        intro h
        exact hend (by rw [Option.some.inj h]; rfl)
      obtain ⟨hbreak, hempty⟩ := hlast (getLast?_lines_ne hlines hlast_ne hne)
      rw [BlockText.all, hempty, List.append_nil, hbreak, ← hlines] at hall
      exact List.append_cancel_right hall

theorem isBreak_of_endsLine {c : Char} (h : endsLine c = false) : isBreak .modern c = false := by
  simp only [endsLine, Bool.or_eq_false_iff, decide_eq_false_iff_not] at h
  simp only [isBreak, h, decide_false, Bool.or_self, Bool.false_and, reduceCtorEq]

/-- Where the indentation is not given, the first line shows it. -/
theorem exists_explicit {cs after : List Char} {lines : List (List Char)} (hne : cs ≠ [])
    (hlines : cs ++ after = unlines lines) (hlines_ne : lines ≠ []) :
    ∃ explicit : Bool, indentSign cs = (if explicit then ['2'] else []) ∧ (explicit = false →
      ∃ line later, lines = line :: later ∧ line ≠ [] ∧ line.head? ≠ some ' ') := by
  obtain ⟨c, cs, rfl⟩ := List.exists_cons_of_ne_nil hne
  obtain ⟨line, later, rfl⟩ := List.exists_cons_of_ne_nil hlines_ne
  refine ⟨isSpace c || endsLine c, rfl, fun hc => ⟨line, later, rfl, ?_⟩⟩
  obtain ⟨hspace, hend⟩ := Bool.or_eq_false_iff.mp hc
  cases line with
  | nil =>
    obtain ⟨rfl, -⟩ := List.cons.inj hlines
    exact absurd hend (by decide)
  | cons d line =>
    obtain ⟨rfl, -⟩ := List.cons.inj hlines
    refine ⟨List.cons_ne_nil _ _, fun h => ?_⟩
    rw [Option.some.inj h] at hspace
    exact absurd hspace (by decide)

/-- A literal block is scanned with the blanks of the line behind it. -/
theorem exists_fetchLiteral {cs : List Char} {column : Nat} {cols : List Nat} {ts : List Token}
    (h : s.Ready (column :: cols) ts ('|' :: (indentSign cs ++ chompingSign cs ++
      '\n' :: (literalChars (column + 2) true cs ++
        (if cs.getLast?.any endsLine then [] else ['\n']) ++ text))))
    (hne : cs ≠ []) (hends : ∀ c ∈ cs, endsLine c = true → c = '\n')
    (htext : Cursor.Resumes column text) :
    ∃ s', (fetchBlockScalar false).run s = .ok ((), s') ∧
      s'.Between (column :: cols) (.scalar cs .literal :: ts) text := by
  obtain ⟨chomping, lines, hsign, hlines_ne, hlines, hchars, hchomping⟩ :=
    exists_chomping hne hends
  have hrows : literalChars (column + 2) true cs ++
      (if cs.getLast?.any endsLine then [] else ['\n']) = rows (column + 2) lines := by
    rw [← literalChars_unlines hchars, ← hlines]
    split
    · rw [List.append_nil, List.append_nil]
    · rw [literalChars_append]
  obtain ⟨explicit, hindent, hfirst⟩ := exists_explicit hne hlines hlines_ne
  obtain ⟨k, hkey, hrequired⟩ := exists_removeKey h.toSteady
  have hrest : ((s.withKeys [k]).allow true).rest = '|' :: (header explicit chomping ++
      '\n' :: (rows (column + 2) lines ++ text)) := by
    rw [← hrows, header, ← hindent, ← hsign]
    exact h.rest
  obtain ⟨b, s', hread, hsteady, hin, hallowed, hat, hall, hlast⟩ :=
    exists_readBlockScalar (s := (s.withKeys [k]).allow true)
      ((h.toSteady.withKeys hrequired).allow true) h.blocks hrest
      (fun l hl c hc => isBreak_of_endsLine (hchars l hl c hc)) hfirst htext
  rw [hchomping b hall (hlast hlines_ne)] at hread
  refine ⟨s'.push (.scalar cs .literal), ?_, ?_⟩
  · simp only [fetchBlockScalar, StateT.run_bind, hkey, ok_bind, run_allowKey, hread, run_emit]
    rfl
  · exact
      { place := .inr ⟨hat.1, hat.2, hallowed⟩
        blocks := ⟨[], _, .inl hin, fun _ hc => (nomatch hc), hsteady.push _, rfl⟩ }

end Scan

end Yaml

end PlatformProxy
