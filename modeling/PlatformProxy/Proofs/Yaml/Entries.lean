import PlatformProxy.Proofs.Yaml.Plain

/-!
# Keys, dashes and brackets

A key is scanned in two steps: first as a plain scalar that may turn out to be one, and then, at
the colon, for what it is. The token for the key, and for the beginning of its mapping if it is the
first, are put in before the scalar.

## Main definitions

* `Yaml.Scan.Scans` — tokens are scanned, and something is left of the text after each

## Main results

* `Yaml.Scan.exists_key` — the key of a pair, in its block or in a new one
* `Yaml.Scan.exists_dash` — the dash of an entry
* `Yaml.Scan.exists_brackets` — a sequence without entries
* `Yaml.Scan.exists_streamEnd` — the end of the text
-/

namespace PlatformProxy

namespace Yaml

namespace Cursor

/-- The blocks at the given columns are open, and what follows has to be indented further. -/
def past (s : Cursor) (cols : List Nat) : Cursor :=
  { s with
    indent := innermost cols + 1
    enclosing := ⟨innermost cols, false⟩ :: around cols }

/-- The tokens have been replaced. -/
def withTokens (s : Cursor) (ts : List Token) : Cursor :=
  { s with
    tokens := ts
    count := ts.length }

theorem Steady.past {s : Cursor} {ts : List Token} (h : s.Steady ts) (cols : List Nat) :
    (s.past cols).Steady ts := { h with }

/-- A scalar has been scanned that began at a column, and the colon behind it is next. -/
structure Pending (s : Cursor) (n : Nat) (cols : List Nat) (ts : List Token) (t : Token)
    (rest : List Char) : Prop where
  dialect : s.dialect = .modern
  flowLevel : s.flowLevel = 0
  tokens : s.tokens = t :: ts
  count : s.count = ts.length + 1
  size : s.rest.length ≤ s.size
  rest : s.rest = ':' :: rest
  blocks : s.IsIn cols
  column : n < s.mark.column
  keys : ∃ k, s.keys = [k] ∧ k.isPossible = true ∧ k.token = ts.length ∧ k.mark.column = n ∧
    k.mark.line = s.mark.line ∧ s.mark.index ≤ k.mark.index + 1024

/-- Brackets have been opened. -/
def openBrackets (s : Cursor) : Cursor :=
  { s with
    flowLevel := s.flowLevel + 1
    keys := noKey :: s.keys }

/-- Brackets have been closed, and no others are open. -/
def closeBrackets (s : Cursor) : Cursor :=
  { s with
    flowLevel := s.flowLevel - 1
    keys := s.keys.tail }

/-- Only within brackets a colon may follow the closing bracket of others. -/
def detach (s : Cursor) : Cursor :=
  { s with adjacent := if 0 < s.flowLevel then some s.mark.index else none }

/-- Brackets have been opened on the line. -/
structure Bracketed (s : Cursor) (cols : List Nat) (ts : List Token) (text : List Char) :
    Prop where
  dialect : s.dialect = .modern
  flowLevel : s.flowLevel = 1
  tokens : s.tokens = ts
  count : s.count = ts.length
  size : s.rest.length ≤ s.size
  rest : s.rest = text
  blocks : s.IsIn cols ∨ s.IsPast cols
  column : s.mark.column ≠ 0 ∧ s.indent ≤ s.mark.column
  keys : ∃ k, s.keys = [noKey, k] ∧ (k.isPossible && k.isRequired) = false

/-- Nothing but the end of the line may be behind a colon. -/
theorem Awaits.between {s : Cursor} {cols : List Nat} {ts : List Token} {text : List Char}
    (h : s.Awaits cols ts ('\n' :: text)) : s.Between cols ts text where
  place := .inl h.rest
  blocks := ⟨[], ts, h.blocks, fun _ hc => (nomatch hc), h.toSteady, rfl⟩

end Cursor

namespace Scan

variable {s s' s'' : Cursor} {cols : List Nat} {ts : List Token} {text rest : List Char} {n : Nat}

/-! ### Several tokens -/

/-- From one state to another by scanning tokens. Each takes something off the text, and none is
the last. -/
inductive Scans : Cursor → Cursor → Prop
  | refl (s : Cursor) : Scans s s
  | step {s s' s'' : Cursor} (h : next.run s = .ok (false, s'))
      (hlt : s'.rest.length < s.rest.length) (hrest : Scans s' s'') : Scans s s''

namespace Scans

theorem trans (h : Scans s s') (h' : Scans s' s'') : Scans s s'' := by
  induction h with
  | refl => exact h'
  | step hnext hlt _ ih => exact .step hnext hlt (ih h')

theorem single (h : next.run s = .ok (false, s')) (hlt : s'.rest.length < s.rest.length) :
    Scans s s' :=
  .step h hlt (.refl s')

/-- Fuel for all the text that is left is still enough afterwards. -/
theorem exists_all (h : Scans s s') {fuel : Nat} (hfuel : s.rest.length < fuel) :
    ∃ fuel', s'.rest.length < fuel' ∧ (all fuel).run s = (all fuel').run s' := by
  induction h generalizing fuel with
  | refl => exact ⟨fuel, hfuel, rfl⟩
  | step hnext hlt _ ih =>
    cases fuel with
    | zero => exact absurd hfuel (Nat.not_lt_zero _)
    | succ fuel =>
      obtain ⟨fuel', hfuel', hall⟩ := ih (Nat.lt_of_lt_of_le hlt (Nat.le_of_lt_succ hfuel))
      refine ⟨fuel', hfuel', ?_⟩
      rw [← hall]
      simp only [all, StateT.run_bind, hnext, ok_bind, Bool.false_eq_true, if_false]

end Scans

/-! ### The beginning of a block -/

theorem run_roll_same {number : Option Nat} {t : Token} (hin : s.IsIn (n :: cols)) :
    (roll n number t).run s = .ok ((), s) := by
  obtain ⟨hindent, henclosing⟩ := hin
  have hindent : s.indent = n := hindent
  simp only [roll, StateT.run_bind, run_get, ok_bind]
  split
  · simp only [henclosing, around, Bool.not_true, Bool.false_eq_true, and_false, if_false,
      StateT.run_bind, run_set, ok_bind, hindent, Int.lt_irrefl, run_pure]
  · rfl

theorem run_roll_new {number : Nat} {t : Token} (hflow : s.flowLevel = 0) (hin : s.IsIn cols)
    (hcols : innermost cols < n) :
    (roll n (some number) t).run s = (insert number t).run (s.within (n :: cols)) := by
  obtain ⟨hindent, henclosing⟩ := hin
  cases cols with
  | nil =>
    simp only [roll, StateT.run_bind, run_get, ok_bind, hflow, if_true, henclosing, around, run_set,
      hindent, hcols]
    rw [Cursor.within, hflow]
    rfl
  | cons c cols =>
    simp only [roll, StateT.run_bind, run_get, ok_bind, hflow, if_true, henclosing, around,
      Bool.not_true, Bool.false_eq_true, and_false, if_false, run_set, hindent, hcols]
    rw [Cursor.within, hflow]
    rfl

theorem run_rollOneColumn (hdialect : s.dialect = .modern) (hflow : s.flowLevel = 0)
    (hin : s.IsIn (n :: cols)) : rollOneColumn.run s = .ok ((), s.past (n :: cols)) := by
  obtain ⟨hindent, henclosing⟩ := hin
  have hpast : s.past (n :: cols) =
      { s with indent := s.indent + 1, enclosing := ⟨s.indent, false⟩ :: s.enclosing } := by
    rw [Cursor.past, hindent, henclosing]
  rw [hpast, rollOneColumn, run_modify, hdialect, hflow, henclosing]
  rfl

/-- A pair of a mapping at a column begins in its block, or it begins the block. -/
inductive Begins (n : Nat) : List Nat → List Token → List Nat → List Token → Prop
  | same (cols : List Nat) (ts : List Token) : Begins n (n :: cols) ts (n :: cols) ts
  | new {cols : List Nat} (ts : List Token) (h : innermost cols < n) :
      Begins n cols ts (n :: cols) (.blockMappingStart :: ts)

theorem insertIdx_behind {α : Type} (xs ys : List α) (x : α) :
    (xs ++ ys).insertIdx xs.length x = xs ++ x :: ys := by
  induction xs with
  | nil => rfl
  | cons y xs ih => rw [List.cons_append, List.length_cons, List.insertIdx_succ_cons, ih]; rfl

/-- A token goes before some of the latest. -/
theorem run_insert_behind {t : Token} (later : List Token) (htokens : s.tokens = later ++ ts)
    (hcount : s.count = (later ++ ts).length) :
    (insert ts.length t).run s = .ok ((), s.withTokens (later ++ t :: ts)) := by
  have hnumber : s.count - ts.length = later.length := by
    rw [hcount, List.length_append, Nat.add_sub_cancel]
  rw [run_insert, htokens, hnumber, insertIdx_behind, Cursor.withTokens, hcount, List.length_append,
    List.length_append, List.length_cons, Nat.add_assoc]

/-- The beginning of a mapping is put in where its first pair begins. -/
theorem run_roll_begins {cols' : List Nat} {ts' : List Token} (later : List Token)
    (hflow : s.flowLevel = 0) (hin : s.IsIn cols) (htokens : s.tokens = later ++ ts)
    (hcount : s.count = (later ++ ts).length) (hbegins : Begins n cols ts cols' ts') :
    (roll n (some ts.length) .blockMappingStart).run s =
      .ok ((), (s.within cols').withTokens (later ++ ts')) := by
  cases hbegins with
  | same cols =>
    have hself : (s.within (n :: cols)).withTokens (later ++ ts) = s := by
      rw [Cursor.withTokens, ← htokens, htokens, ← hcount, ← htokens, Cursor.within, ← hin.1,
        ← hin.2]
    rw [hself]
    exact run_roll_same hin
  | new ts h =>
    rw [run_roll_new hflow hin h]
    exact run_insert_behind (s := s.within (n :: cols)) later htokens hcount

theorem run_unroll_in {column : Int} (hin : s.IsIn cols) (hcols : innermost cols ≤ column) :
    (unroll column).run s = .ok ((), s) := by
  have hindent : s.indent ≤ column := by
    rw [hin.1]
    exact hcols
  rw [unroll, run_modify, unrollFrom_of_le hindent, ite_self]

/-! ### Keys -/

theorem run_fetchFrom_colon (hrest : s.rest = ':' :: rest)
    (hgap : isGap s.dialect rest.head? = true) :
    (fetchFrom ':').run s = fetchValue.run s := by
  have hnext : s.rest[1]? = rest.head? := by
    rw [hrest, List.getElem?_cons_succ, List.head?_eq_getElem?]
  simp only [fetchFrom, colonIsValue, StateT.run_bind, run_get, run_gapAt, ok_bind, Char.reduceEq,
    if_false, false_and, if_true, hnext, hgap, run_pure]

theorem Begins.exists_cols {cols' : List Nat} {ts' : List Token}
    (h : Begins n cols ts cols' ts') : innermost cols ≤ n ∧ ∃ around, cols' = n :: around := by
  cases h with
  | same cols => exact ⟨Int.le_refl _, cols, rfl⟩
  | new ts h => exact ⟨Int.le_of_lt h, cols, rfl⟩

/-- At the colon the scalar in front of it becomes a key. -/
theorem exists_fetchValue {cols' : List Nat} {ts' : List Token} {t : Token}
    (h : s.Pending n cols ts t rest) (hbegins : Begins n cols ts cols' ts') :
    ∃ s', fetchValue.run s = .ok ((), s') ∧ s'.Awaits cols' (.value :: t :: .key :: ts') rest := by
  obtain ⟨-, around, rfl⟩ := hbegins.exists_cols
  obtain ⟨k, hkeys, hpossible, hnumber, hcolumn, -, -⟩ := h.keys
  have hinsert : (insert ts.length .key).run s = .ok ((), s.withTokens (t :: .key :: ts)) :=
    run_insert_behind [t] h.tokens h.count
  let s₁ := ((s.withTokens (t :: .key :: ts)).within (n :: around)).withTokens (t :: .key :: ts')
  have hroll : (roll n (some ts.length) .blockMappingStart).run (s.withTokens (t :: .key :: ts)) =
      .ok ((), s₁) := run_roll_begins [t, .key] h.flowLevel h.blocks rfl rfl hbegins
  let s₂ := s₁.withKeys [⟨false, k.isRequired, ts.length, k.mark⟩]
  have hlimit : rollOneColumn.run s₂ = .ok ((), s₂.past (n :: around)) :=
    run_rollOneColumn h.dialect h.flowLevel ⟨rfl, rfl⟩
  have hfetch : fetchValue.run s =
      .ok ((), (((s₂.past (n :: around)).allow false).advance 1).push .value) := by
    have htail : s₁.keys.tail = [] := congrArg List.tail hkeys
    simp only [fetchValue, StateT.run_bind, run_get, ok_bind, hkeys, List.headD_cons, hpossible,
      if_true, hnumber, hcolumn, hinsert, hroll, run_modify, run_allowKey, run_skip, run_emit,
      htail]
    exact congrArg (· >>= fun p => .ok ((), ((p.2.allow false).advance 1).push .value)) hlimit
  have hsteady : s₂.Steady (t :: .key :: ts') :=
    { dialect := h.dialect
      flowLevel := h.flowLevel
      tokens := rfl
      count := rfl
      size := h.size
      keys := ⟨_, rfl, rfl⟩ }
  refine ⟨_, hfetch, ?_⟩
  exact { (((hsteady.past (n :: around)).allow false).advance 1).push .value with
    rest := Cursor.rest_advance_one h.rest
    blocks := .inr ⟨rfl, rfl⟩
    column := Int.ofNat_lt.mpr (Nat.lt_succ_of_lt h.column) }

/-- The colon is the next token. -/
theorem exists_next_colon {cols' : List Nat} {ts' : List Token} {t : Token}
    (h : s.Pending n cols ts t rest) (hgap : isGap .modern rest.head? = true)
    (hbegins : Begins n cols ts cols' ts') :
    ∃ s', next.run s = .ok (false, s') ∧ s'.Awaits cols' (.value :: t :: .key :: ts') rest := by
  obtain ⟨k, hkeys, hpossible, hnumber, hcolumn, hline, hindex⟩ := h.keys
  obtain ⟨hcols, -⟩ := hbegins.exists_cols
  have hright : innermost cols ≤ s.mark.column :=
    Int.le_trans hcols (Int.ofNat_le.mpr (Nat.le_of_lt h.column))
  have hindent : s.indent ≤ s.mark.column := by
    rw [h.blocks.1]
    exact hright
  have hstale : isStale s k = false := by
    simp only [isStale, hline, Nat.lt_irrefl, decide_false, Bool.false_or,
      decide_eq_false (Nat.not_lt.mpr hindex), Bool.and_false]
  have hself : s.withKeys [k] = s := by
    rw [← hkeys]
    rfl
  have hkeep := run_dropStaleKeys h.flowLevel hkeys (.inl hstale)
  rw [hstale, if_neg Bool.false_ne_true, hself] at hkeep
  have hcolon : Dense s.rest := by
    rw [h.rest]
    exact dense_cons.mpr (by decide)
  have hnext := run_next (run_skipGap_of_dense h.dialect hcolon) hkeep
    (run_unroll_in h.blocks hright) h.rest (.inl (Nat.ne_of_gt (Nat.zero_lt_of_lt h.column)))
    hindent
  have hpending : Cursor.Pending { s with atLineStart := false } n cols ts t rest := { h with }
  obtain ⟨s', hfetch, hawaits⟩ := exists_fetchValue hpending hbegins
  have hgap' : isGap s.dialect rest.head? = true := by rwa [h.dialect]
  refine ⟨s', ?_, hawaits⟩
  rw [hnext, run_fetchFrom_colon (s := { s with atLineStart := false }) h.rest hgap', hfetch]
  rfl

/-- At the beginning of a line a key is scanned as a plain scalar. -/
theorem exists_fetchKey {key : List Char} (h : s.Ready cols ts (key ++ ':' :: rest))
    (hkey : IsKey key) (hgap : isGap .modern rest.head? = true) (hallowed : s.keyAllowed = true) :
    ∃ s', fetchPlain.run s = .ok ((), s') ∧
      s'.Pending s.mark.column cols ts (.scalar key .plain) rest := by
  obtain ⟨k, hk, -⟩ := h.keys
  let s₁ := s.withKeys [⟨true, mustBeKey s, ts.length, s.mark⟩]
  have hsave : saveKey.run s = .ok ((), s₁) := by
    have hsave := run_saveKey h.dialect h.flowLevel hallowed
    rwa [hk, List.tail_cons, h.count] at hsave
  have hread : (readPlain (innermost cols + 1) (s.size + 1) [] Gap.empty).run
      ((s₁.allow false).within cols) =
        .ok ((key, Gap.empty), ((s₁.allow false).within cols).advance key.length) :=
    run_readPlain_key hkey h.dialect h.flowLevel h.size h.rest hgap
  have hscalar := run_readPlainScalar (s := s₁.allow false) h.flowLevel h.blocks hread
  rw [if_neg (show ¬ Gap.empty.isBroken = true by decide)] at hscalar
  have hfetch := run_fetchNode (do pure (.scalar (← readPlainScalar) .plain)) hsave (by
    simp only [StateT.run_bind, hscalar, ok_bind, run_pure]; rfl)
  refine ⟨_, hfetch, ?_⟩
  have hlength : 0 < key.length := List.length_pos_iff.mpr hkey.ne_nil
  exact {
    dialect := h.dialect
    flowLevel := h.flowLevel
    tokens := congrArg (Token.scalar key .plain :: ·) h.tokens
    count := congrArg (· + 1) h.count
    size := Nat.le_trans (Cursor.length_rest_advance _ _) h.size
    rest := Cursor.rest_advance h.rest rfl
    blocks := ⟨rfl, rfl⟩
    column := Nat.lt_add_of_pos_right hlength
    keys := ⟨_, rfl, rfl, rfl, rfl, rfl, Nat.add_le_add_left hkey.length_le _⟩ }

/-- A key and the colon behind it. -/
theorem exists_key {key : List Char} {cols' : List Nat} {ts' : List Token}
    (h : s.Between cols ts text) (htext : text = blanks n ++ (key ++ ':' :: rest))
    (hkey : IsKey key) (hgap : isGap .modern rest.head? = true)
    (hbegins : Begins n cols ts cols' ts') :
    ∃ s', Scans s s' ∧ s'.Awaits cols' (.value :: .scalar key .plain :: .key :: ts') rest := by
  obtain ⟨hcols, -⟩ := hbegins.exists_cols
  obtain ⟨c, w, hw, hfirst⟩ := hkey.exists_cons
  have hdense : Dense (c :: (w ++ ':' :: rest)) := dense_of_isAlphanum hfirst _
  have hself : key ++ ':' :: rest = c :: (w ++ ':' :: rest) := by
    rw [hw]
    rfl
  have hindentation : indentation text = n := by
    rw [htext, hself]
    exact indentation_blanks n hdense.head?_ne
  have hcontents : contents text = c :: (w ++ ':' :: rest) := by
    rw [htext, hself]
    exact contents_blanks n hdense.head?_ne
  obtain ⟨s₁, hnext, hready, hallowed, hcolumn, -, hle⟩ := exists_next_line h hcontents hdense
    (hindentation ▸ hcols) (.inr (.inl hfirst))
  have hplain : (fetchFrom c).run s₁ = fetchPlain.run s₁ :=
    run_fetchFrom_plain hready.dialect hready.flowLevel hready.rest
      (not_mem_leadingIndicators hfirst)
      fun hc => absurd hc (not_separator_of_isAlphanum hfirst)
  rw [← hself] at hready hle
  obtain ⟨s₂, hfetch, hpending⟩ := exists_fetchKey hready hkey hgap hallowed
  rw [hcolumn, hindentation] at hpending
  obtain ⟨s₃, hnext', hawaits⟩ := exists_next_colon hpending hgap hbegins
  rw [hplain, hfetch] at hnext
  refine ⟨s₃, .step hnext ?_ (.single hnext' ?_), hawaits⟩
  · rw [List.length_append] at hle
    rw [hpending.rest]
    exact Nat.lt_of_lt_of_le (Nat.lt_add_of_pos_left (List.length_pos_iff.mpr hkey.ne_nil)) hle
  · rw [hawaits.rest, hpending.rest]
    exact Nat.lt_succ_self _

/-! ### Dashes -/

theorem run_fetchFrom_dash (hrest : s.rest = '-' :: rest)
    (hgap : isGap s.dialect rest.head? = true) :
    (fetchFrom '-').run s = fetchBlockEntry.run s := by
  have hnext : s.rest[1]? = rest.head? := by
    rw [hrest, List.getElem?_cons_succ, List.head?_eq_getElem?]
  simp only [fetchFrom, StateT.run_bind, run_get, run_gapAt, ok_bind, Char.reduceEq, if_false,
    if_true, hnext, hgap, and_self]

/-- The dash of an entry in the column of the mapping around it. -/
theorem exists_fetchBlockEntry (h : s.Ready (n :: cols) ts ('-' :: ' ' :: rest))
    (hin : s.IsIn (n :: cols)) (hcolumn : s.mark.column = n) (hallowed : s.keyAllowed = true) :
    ∃ s', fetchBlockEntry.run s = .ok ((), s') ∧
      s'.Awaits (n :: cols) (.blockEntry :: ts) (' ' :: rest) := by
  obtain ⟨k, hkey, hrequired⟩ := exists_removeKey h.toSteady
  have hroll : (roll s.mark.column none .blockSequenceStart).run s = .ok ((), s) := by
    rw [hcolumn]
    exact run_roll_same hin
  have hrest : ((((s.withKeys [k]).allow true).advance 1).push .blockEntry).rest = ' ' :: rest :=
    Cursor.rest_advance_one h.rest
  have hfetch : fetchBlockEntry.run s =
      .ok ((), (((s.withKeys [k]).allow true).advance 1).push .blockEntry) := by
    simp only [fetchBlockEntry, StateT.run_bind, run_get, ok_bind, h.flowLevel, Nat.lt_irrefl,
      if_false, hallowed, Bool.not_true, Bool.false_eq_true, hroll, hkey, run_allowKey, run_skip,
      run_emit, run_peek, hrest, h.dialect]
    rfl
  refine ⟨_, hfetch, ?_⟩
  exact { (((h.toSteady.withKeys hrequired).allow true).advance 1).push .blockEntry with
    rest := hrest
    blocks := .inl hin
    column := by rw [← hcolumn]; exact Int.ofNat_lt.mpr (Nat.lt_succ_self _) }

/-- The dash of an entry. -/
theorem exists_dash (h : s.Between (n :: cols) ts text)
    (htext : text = blanks n ++ '-' :: ' ' :: rest) :
    ∃ s', Scans s s' ∧ s'.Awaits (n :: cols) (.blockEntry :: ts) (' ' :: rest) := by
  have hdense : Dense ('-' :: ' ' :: rest) := dense_cons.mpr (by decide)
  have hindentation : indentation text = n := by
    rw [htext]
    exact indentation_blanks n hdense.head?_ne
  have hcontents : contents text = '-' :: ' ' :: rest := by
    rw [htext]
    exact contents_blanks n hdense.head?_ne
  obtain ⟨s₁, hnext, hready, hallowed, hcolumn, hin, hle⟩ := exists_next_line h hcontents hdense
    (hindentation ▸ Int.le_refl _) (.inr (.inr ⟨rfl, rfl⟩))
  rw [hindentation] at hcolumn hin
  obtain ⟨s₂, hfetch, hawaits⟩ := exists_fetchBlockEntry hready
    (hin.resolve_right (Int.lt_irrefl _)) hcolumn hallowed
  rw [run_fetchFrom_dash hready.rest (by rw [hready.dialect]; rfl), hfetch] at hnext
  refine ⟨s₂, .single hnext ?_, hawaits⟩
  rw [hawaits.rest]
  exact hle

/-! ### Brackets -/

theorem exists_rollOneColumn (h : s.Steady ts) (hblocks : s.IsIn cols ∨ s.IsPast cols) :
    ∃ s', rollOneColumn.run s = .ok ((), s') ∧ (s'.IsIn cols ∨ s'.IsPast cols) ∧ s'.Steady ts ∧
      s'.rest = s.rest ∧ s'.mark = s.mark ∧ s'.keys = s.keys := by
  rcases hblocks with hin | hpast
  · cases cols with
    | nil =>
      have hself : rollOneColumn.run s = .ok ((), s) := by
        rw [rollOneColumn, run_modify, h.dialect, h.flowLevel, hin.2]
        rfl
      exact ⟨s, hself, .inl hin, h, rfl, rfl, rfl⟩
    | cons c cols =>
      exact ⟨_, run_rollOneColumn h.dialect h.flowLevel hin, .inr ⟨rfl, rfl⟩, h.past _, rfl, rfl,
        rfl⟩
  · have hself : rollOneColumn.run s = .ok ((), s) := by
      rw [rollOneColumn, run_modify, h.dialect, h.flowLevel, hpast.2]
      rfl
    exact ⟨s, hself, .inr hpast, h, rfl, rfl, rfl⟩

theorem exists_fetchFlowStart (h : s.Ready cols ts ('[' :: rest))
    (hcolumn : innermost cols + 1 < s.mark.column) :
    ∃ s', (fetchFrom '[').run s = .ok ((), s') ∧
      s'.Bracketed cols (.flowSequenceStart :: ts) rest := by
  obtain ⟨k, hsave, hrequired⟩ := exists_saveKey h (by omega)
  obtain ⟨s₁, hroll, hblocks, hsteady, hrest, hmark, hkeys⟩ :=
    exists_rollOneColumn (h.toSteady.withKeys hrequired) h.blocks
  have hfetch : (fetchFrom '[').run s = .ok ((),
      ((s₁.openBrackets.allow true).advance 1).push .flowSequenceStart) := by
    simp only [fetchFrom, fetchFlowStart, StateT.run_bind, run_get, run_gapAt, ok_bind, if_true,
      hsave, hroll, run_modify, run_allowKey, run_skip, run_emit]
    rfl
  have hcolumn' : s₁.indent ≤ (s₁.mark.column + 1 : Nat) := by
    have hcolumn : innermost cols + 1 < s₁.mark.column := hmark ▸ hcolumn
    rcases hblocks with hin | hpast
    · rw [hin.1]
      omega
    · rw [hpast.1]
      omega
  refine ⟨_, hfetch, ?_⟩
  exact {
    dialect := hsteady.dialect
    flowLevel := congrArg (· + 1) hsteady.flowLevel
    tokens := congrArg (Token.flowSequenceStart :: ·) hsteady.tokens
    count := congrArg (· + 1) hsteady.count
    size := Nat.le_trans (Cursor.length_rest_advance _ _) hsteady.size
    rest := Cursor.rest_advance_one (hrest.trans h.rest)
    blocks := hblocks
    column := ⟨Nat.succ_ne_zero _, hcolumn'⟩
    keys := ⟨k, congrArg (Cursor.noKey :: ·) hkeys, hrequired⟩ }

theorem exists_fetchFlowEnd (h : s.Bracketed cols ts (']' :: '\n' :: text)) :
    ∃ s', (fetchFrom ']').run s = .ok ((), s') ∧ s'.Between cols (.flowSequenceEnd :: ts) text := by
  obtain ⟨k, hkeys, hrequired⟩ := h.keys
  have hopen : 0 < s.flowLevel := by
    rw [h.flowLevel]
    exact Nat.one_pos
  have hremove : removeKey.run s = .ok ((), s) := by
    simp only [removeKey, StateT.run_bind, run_get, ok_bind, hkeys, Cursor.noKey, Bool.false_and,
      Bool.false_eq_true, if_false]
    rw [← Cursor.noKey, ← hkeys]
    rfl
  have hfetch : (fetchFrom ']').run s = .ok ((),
      (((s.closeBrackets.allow false).advance 1).push .flowSequenceEnd).detach) := by
    simp only [fetchFrom, fetchFlowEnd, StateT.run_bind, run_get, run_gapAt, ok_bind, if_true,
      Char.reduceEq, if_false, hremove, run_modify, hopen, run_allowKey, run_skip, run_emit]
    rfl
  refine ⟨_, hfetch, { place := .inl (Cursor.rest_advance_one h.rest), blocks := ?_ }⟩
  have hsteady : s.closeBrackets.Steady ts :=
    { dialect := h.dialect
      flowLevel := congrArg (· - 1) h.flowLevel
      tokens := h.tokens
      count := h.count
      size := h.size
      keys := ⟨k, congrArg List.tail hkeys, hrequired⟩ }
  exact ⟨[], _, h.blocks, fun _ hc => absurd hc List.not_mem_nil,
    { ((hsteady.allow false).advance 1).push .flowSequenceEnd with }, rfl⟩

/-- The closing bracket is the next token. -/
theorem exists_next_flowEnd (h : s.Bracketed cols ts (']' :: '\n' :: text)) :
    ∃ s', next.run s = .ok (false, s') ∧ s'.Between cols (.flowSequenceEnd :: ts) text := by
  have hdense : Dense s.rest := by
    rw [h.rest]
    exact dense_cons.mpr (by decide)
  have hflow : s.flowLevel ≠ 0 := by
    rw [h.flowLevel]
    exact Nat.one_ne_zero
  have hunroll : (unroll s.mark.column).run s = .ok ((), s) := by
    rw [unroll, run_modify, if_neg hflow]
  have hnext := run_next (run_skipGap_of_dense h.dialect hdense)
    (run_dropStaleKeys_flow h.dialect hflow) hunroll h.rest (.inl h.column.1) h.column.2
  have hbracketed : Cursor.Bracketed { s with atLineStart := false } cols ts
      (']' :: '\n' :: text) := { h with }
  obtain ⟨s', hfetch, hbetween⟩ := exists_fetchFlowEnd hbracketed
  exact ⟨s', by rw [hnext, hfetch]; rfl, hbetween⟩

/-- A sequence without entries. -/
theorem exists_brackets (h : s.Awaits cols ts (' ' :: '[' :: ']' :: '\n' :: text)) :
    ∃ s', Scans s s' ∧ s'.Between cols (.flowSequenceEnd :: .flowSequenceStart :: ts) text := by
  obtain ⟨s₁, hnext, hready, hcolumn⟩ := exists_next_value h (dense_cons.mpr (by decide))
  obtain ⟨s₂, hfetch, hbracketed⟩ := exists_fetchFlowStart hready hcolumn
  obtain ⟨s₃, hnext', hbetween⟩ := exists_next_flowEnd hbracketed
  rw [hfetch] at hnext
  refine ⟨s₃, .step hnext ?_ (.single hnext' ?_), hbetween⟩
  · rw [hbracketed.rest, h.rest]
    exact Nat.lt_succ_of_lt (Nat.lt_succ_self _)
  · rw [hbracketed.rest]
    exact Nat.lt_of_le_of_lt hbetween.length_rest_le (Nat.lt_succ_self _)

/-! ### The end -/

/-- At the end of the text the only block left is closed. -/
theorem exists_streamEnd (h : s.Between [0] ts []) :
    ∃ s', next.run s = .ok (true, s') ∧ s'.tokens = .streamEnd :: .blockEnd :: ts := by
  obtain ⟨s₁, inner, before, hgap, hsteady, hblocks, hinner, hts, hrest, hcolumn, -, -⟩ :=
    exists_skipGap h dense_nil
  obtain ⟨k, hstale, hrequired⟩ := exists_dropStaleKeys hsteady
  have hleft : innermost [0] ≤ ((0 : Nat) : Int) := Int.le_refl _
  rcases run_unroll (s := s₁.withKeys [k]) hsteady.flowLevel hblocks hleft
    (fun c hc => Int.ofNat_lt.mpr (hinner c hc)) with hunroll | ⟨-, hright, -, -⟩
  · let s₂ := closed (s₁.withKeys [k]) [0] inner.length
    have hclosed : (unroll (-1)).run s₂ = .ok ((), closed s₂ [] 1) := by
      have hright : ∀ c ∈ [0], innermost [] < ((c : Nat) : Int) := by decide
      have hinside : s₂.IsIn ([0] ++ []) := ⟨rfl, rfl⟩
      exact (run_unroll (s := s₂) hsteady.flowLevel (.inl hinside) (Int.le_refl _)
        hright).resolve_right fun h => nomatch h.1
    have hkey : (unroll s₁.mark.column).run (s₁.withKeys [k]) = .ok ((), s₂) := by
      rw [hcolumn]
      exact hunroll
    have hsteady₂ : s₂.Steady (List.replicate inner.length .blockEnd ++ before) :=
      steady_closed (hsteady.withKeys hrequired) [0] inner.length
    obtain ⟨k', hremove, -⟩ := exists_removeKey (steady_closed hsteady₂ [] 1)
    refine ⟨(((closed s₂ [] 1).withKeys [k']).allow false).push .streamEnd, ?_, ?_⟩
    · have hempty : s₂.rest = [] := hrest
      have hmark : (s₁.withKeys [k]).mark = s₁.mark := rfl
      simp only [next, StateT.run_bind, run_bound, ok_bind, hgap, hstale, run_column, hmark, hkey,
        run_get, hempty, fetchStreamEnd, hclosed, hremove, run_allowKey, run_emit, run_pure]
    · rw [hts, ← hsteady.tokens]
      rfl
  · exact absurd hright (Int.lt_irrefl _)

end Scan

end Yaml

end PlatformProxy
