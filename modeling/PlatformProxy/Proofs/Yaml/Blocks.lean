import PlatformProxy.Proofs.Yaml.Running

/-!
# Blocks that are open

A scanner keeps the columns of the blocks that are open, and perhaps one column more behind the
innermost, which what follows a colon must not be left of. Between two lines the blocks that the
next line closes are still open, and whatever may have been a key is one no longer.

## Main definitions

* `Yaml.Cursor.IsIn`, `Yaml.Cursor.IsPast` — the blocks at some columns are open
* `Yaml.Cursor.Steady` — no brackets are open, and no key is missing its colon
* `Yaml.Cursor.Ready` — a token begins here
* `Yaml.Cursor.Between` — the line before a text is over
* `Yaml.Cursor.Resumes` — a text that the blocks at a column go on with, or that ends them
* `Yaml.Cursor.Awaits` — what is to come stands behind a blank on the same line

## Main results

* `Yaml.Scan.exists_next_line`, `Yaml.Scan.exists_next_value` — the next token, by its first
  character
-/

namespace PlatformProxy

namespace Yaml

/-! ### The state -/

/-- The column of the innermost block, or -1. -/
def innermost : List Nat → Int
  | [] => -1
  | c :: _ => c

/-- The columns around the innermost one, where all belong to blocks. -/
def around : List Nat → List Enclosing
  | [] => []
  | _ :: cols => ⟨innermost cols, true⟩ :: around cols

namespace Cursor

/-- The blocks at the given columns are open, the innermost first. -/
def IsIn (s : Cursor) (cols : List Nat) : Prop :=
  s.indent = innermost cols ∧ s.enclosing = around cols

/-- They are open, and what follows has to be indented by one column more. -/
def IsPast (s : Cursor) (cols : List Nat) : Prop :=
  s.indent = innermost cols + 1 ∧ s.enclosing = ⟨innermost cols, false⟩ :: around cols

/-- The blocks at the given columns are left open, and no limit but theirs holds. -/
def within (s : Cursor) (cols : List Nat) : Cursor :=
  { s with
    indent := innermost cols
    enclosing := around cols }

theorem isIn_within (s : Cursor) (cols : List Nat) : (s.within cols).IsIn cols := ⟨rfl, rfl⟩

/-- No brackets are open, there are the given tokens, the latest first, and nothing has to be a
key. -/
structure Steady (s : Cursor) (ts : List Token) : Prop where
  dialect : s.dialect = .modern
  flowLevel : s.flowLevel = 0
  tokens : s.tokens = ts
  count : s.count = ts.length
  size : s.rest.length ≤ s.size
  keys : ∃ k, s.keys = [k] ∧ (k.isPossible && k.isRequired) = false

/-- A token begins here, in the blocks at the given columns or further to the right. -/
structure Ready (s : Cursor) (cols : List Nat) (ts : List Token) (text : List Char) : Prop
    extends s.Steady ts where
  rest : s.rest = text
  blocks : s.IsIn cols ∨ s.IsPast cols
  column : s.indent ≤ s.mark.column

/-- The line before a text is over: its end is still there, or so are only the contents of the
next line. The tokens count the ends of the blocks that this line will close. -/
structure Between (s : Cursor) (cols : List Nat) (ts : List Token) (text : List Char) :
    Prop where
  place : s.rest = '\n' :: text ∨
    (s.rest = contents text ∧ s.mark.column = indentation text ∧ s.keyAllowed = true)
  blocks : ∃ inner before, (s.IsIn (inner ++ cols) ∨ s.IsPast (inner ++ cols)) ∧
    (∀ c ∈ inner, indentation text < c) ∧ s.Steady before ∧
    ts = List.replicate inner.length .blockEnd ++ before

/-- What comes next stands on the same line, behind a colon or a dash. -/
structure Awaits (s : Cursor) (cols : List Nat) (ts : List Token) (text : List Char) : Prop
    extends s.Steady ts where
  rest : s.rest = text
  blocks : s.IsIn cols ∨ s.IsPast cols
  column : innermost cols < s.mark.column

/-- What follows a line is not to the right of a column. -/
structure Resumes (column : Nat) (text : List Char) : Prop where
  left : indentation text ≤ column
  dense : Dense (contents text)

variable {s : Cursor} {ts : List Token}

theorem Between.length_rest_le {cols : List Nat} {text : List Char} (h : s.Between cols ts text) :
    s.rest.length ≤ text.length + 1 := by
  rcases h.place with hrest | ⟨hrest, -, -⟩
  · exact Nat.le_of_eq (congrArg List.length hrest)
  · rw [hrest]
    exact Nat.le_succ_of_le (List.dropWhile_sublist _).length_le

theorem Steady.advance (h : s.Steady ts) (n : Nat) : (s.advance n).Steady ts :=
  { h with size := Nat.le_trans (s.length_rest_advance n) h.size }

theorem Steady.breakLine (h : s.Steady ts) : s.breakLine.Steady ts :=
  { h with size := Nat.le_trans s.length_rest_breakLine h.size }

theorem Steady.push (h : s.Steady ts) (t : Token) : (s.push t).Steady (t :: ts) :=
  { h with
    tokens := congrArg (t :: ·) h.tokens
    count := congrArg (· + 1) h.count }

theorem Steady.allow (h : s.Steady ts) (allowed : Bool) : (s.allow allowed).Steady ts := { h with }

theorem Steady.within (h : s.Steady ts) (cols : List Nat) : (s.within cols).Steady ts := { h with }

theorem Steady.withKeys (h : s.Steady ts) {k : KeyCandidate}
    (hk : (k.isPossible && k.isRequired) = false) : (s.withKeys [k]).Steady ts :=
  { h with keys := ⟨k, rfl, hk⟩ }

end Cursor

namespace Scan

variable {s : Cursor} {cols : List Nat} {ts : List Token} {text : List Char}

/-! ### Keys that are too far away -/

/-- Whether a candidate has become too far away to be a key. -/
def isStale (s : Cursor) (k : KeyCandidate) : Bool :=
  k.isPossible && (k.mark.line < s.mark.line || k.mark.index + 1024 < s.mark.index)

theorem run_dropStaleKeys {k : KeyCandidate} (hflow : s.flowLevel = 0) (hkeys : s.keys = [k])
    (hk : isStale s k = false ∨ (k.isPossible && k.isRequired) = false) :
    dropStaleKeys.run s =
      .ok ((), s.withKeys [if isStale s k then { k with isPossible := false } else k]) := by
  have hmissing : (isStale s k && k.isRequired) = false := by
    rcases hk with hk | hk
    · rw [hk, Bool.false_and]
    · rw [isStale, Bool.and_right_comm, hk, Bool.false_and]
  simp only [isStale] at hmissing ⊢
  simp only [dropStaleKeys, StateT.run_bind, run_get, ok_bind, hkeys, hflow, List.any_cons,
    List.any_nil, List.map_cons, List.map_nil, decide_true, Bool.or_true, Bool.and_true,
    Bool.or_false, hmissing, Bool.false_eq_true, if_false, run_set,
    Cursor.withKeys]
  rfl

theorem exists_dropStaleKeys (h : s.Steady ts) :
    ∃ k, dropStaleKeys.run s = .ok ((), s.withKeys [k]) ∧
      (k.isPossible && k.isRequired) = false := by
  obtain ⟨k, hk, hrequired⟩ := h.keys
  refine ⟨_, run_dropStaleKeys h.flowLevel hk (.inr hrequired), ?_⟩
  split
  · rfl
  · exact hrequired

/-- Within brackets no candidate gets too far away. -/
theorem run_dropStaleKeys_flow (hdialect : s.dialect = .modern) (hflow : s.flowLevel ≠ 0) :
    dropStaleKeys.run s = .ok ((), s) := by
  simp only [dropStaleKeys, StateT.run_bind, run_get, ok_bind, hdialect, reduceCtorEq, hflow,
    decide_false, Bool.or_self, Bool.and_false, Bool.false_and, Bool.false_eq_true, if_false,
    List.any_eq_true, and_false, exists_false, List.map_id']
  rw [← hdialect]
  rfl

theorem exists_removeKey (h : s.Steady ts) :
    ∃ k, removeKey.run s = .ok ((), s.withKeys [k]) ∧ (k.isPossible && k.isRequired) = false := by
  obtain ⟨k, hk, hrequired⟩ := h.keys
  refine ⟨{ k with isPossible := false }, ?_, rfl⟩
  simp only [removeKey, StateT.run_bind, run_get, ok_bind, hk, hrequired, Bool.false_eq_true,
    if_false, run_set]
  rfl

/-! ### The ends of blocks -/

/-- The state once `n` blocks have been closed, those at the given columns being left. -/
def closed (s : Cursor) (cols : List Nat) (n : Nat) : Cursor :=
  { s with
    indent := innermost cols
    enclosing := around cols
    tokens := List.replicate n .blockEnd ++ s.tokens
    count := s.count + n }

theorem steady_closed (h : s.Steady ts) (cols : List Nat) (n : Nat) :
    (closed s cols n).Steady (List.replicate n .blockEnd ++ ts) :=
  { h with
    tokens := by rw [← h.tokens]; rfl
    count := by
      rw [List.length_append, List.length_replicate, Nat.add_comm, ← h.count]
      rfl }

theorem unrollFrom_of_le {column : Int} (h : s.indent ≤ column) (es : List Enclosing) :
    unrollFrom column s es = { s with enclosing := es } := by
  cases es with
  | nil => rfl
  | cons e es => rw [unrollFrom, if_pos h]

theorem unrollFrom_cons {column : Int} (h : ¬ s.indent ≤ column) (e : Enclosing)
    (es : List Enclosing) :
    unrollFrom column s (e :: es) =
      unrollFrom column
        (if e.isBlock then { s with indent := e.column }.push .blockEnd
          else { s with indent := e.column }) es := by
  rw [unrollFrom, if_neg h]

theorem unrollFrom_around {column : Int} (hcols : innermost cols ≤ column) (inner : List Nat)
    (hinner : ∀ c ∈ inner, column < c) (hindent : s.indent = innermost (inner ++ cols)) :
    unrollFrom column s (around (inner ++ cols)) = closed s cols inner.length := by
  induction inner generalizing s with
  | nil =>
    rw [List.nil_append] at hindent ⊢
    rw [unrollFrom_of_le (hindent ▸ hcols)]
    simp only [closed, ← hindent, List.length_nil, List.replicate_zero, List.nil_append,
      Nat.add_zero]
  | cons c inner ih =>
    obtain ⟨hc, hinner⟩ := List.forall_mem_cons.mp hinner
    have hright : ¬ s.indent ≤ column := by
      rw [hindent]
      exact Int.not_le.mpr hc
    rw [List.cons_append, around, unrollFrom_cons hright, if_pos rfl, ih hinner rfl]
    simp only [closed, Cursor.push, List.length_cons, List.replicate_succ', List.append_assoc,
      List.singleton_append, Nat.add_assoc, Nat.add_comm 1]

/-- The blocks to the right of a column are closed, and the limit behind the last block is given
up if it is to the right. -/
theorem run_unroll {column : Int} (hflow : s.flowLevel = 0) {inner : List Nat}
    (hblocks : s.IsIn (inner ++ cols) ∨ s.IsPast (inner ++ cols))
    (hcols : innermost cols ≤ column) (hinner : ∀ c ∈ inner, column < c) :
    (unroll column).run s = .ok ((), closed s cols inner.length) ∨
      (inner = [] ∧ innermost cols < column ∧ s.IsPast cols ∧
        (unroll column).run s = .ok ((), s)) := by
  rw [unroll, run_modify, if_pos hflow]
  rcases hblocks with ⟨hindent, henclosing⟩ | ⟨hindent, henclosing⟩
  · rw [henclosing]
    exact .inl (by rw [unrollFrom_around hcols inner hinner hindent])
  · by_cases hle : s.indent ≤ column
    · cases inner with
      | nil =>
        refine .inr ⟨rfl, ?_, ⟨hindent, henclosing⟩, by rw [unrollFrom_of_le hle]⟩
        rw [List.nil_append] at hindent
        omega
      | cons c inner =>
        have hc := hinner c List.mem_cons_self
        have hindent : s.indent = c + 1 := hindent
        omega
    · rw [henclosing, unrollFrom_cons hle, if_neg Bool.false_ne_true,
        unrollFrom_around hcols inner hinner rfl]
      exact .inl rfl

/-! ### The next token -/

section Next

variable {s₁ s₂ s₃ : Cursor} {c : Char} {rest : List Char}

/-- What begins a token also in the first column, where some characters begin directives and three
equal ones may separate documents. -/
def BeginsLine (c : Char) (rest : List Char) : Prop :=
  c.isAlphanum = true ∨ (c = '-' ∧ rest.head? = some ' ')

theorem BeginsLine.ne_percent (h : BeginsLine c rest) : c ≠ '%' := by
  rcases h with h | ⟨h, -⟩
  · rintro rfl
    exact absurd h (by decide)
  · rw [h]
    decide

theorem run_atDocumentMarker_of_beginsLine (hrest : s.rest = c :: rest) (hc : BeginsLine c rest) :
    atDocumentMarker.run s = .ok (false, s) := by
  have hthree : (c :: rest).take 3 ≠ ['-', '-', '-'] ∧ (c :: rest).take 3 ≠ ['.', '.', '.'] := by
    rcases hc with hc | ⟨rfl, hc⟩
    · constructor <;>
      · intro h
        rw [(List.cons.inj h).1] at hc
        exact absurd hc (by decide)
    · obtain ⟨after, rfl⟩ := List.head?_eq_some_iff.mp hc
      constructor <;>
      · intro h
        exact absurd h (by simp)
  simp only [atDocumentMarker, StateT.run_bind, run_get, ok_bind, hrest, hthree.1, hthree.2,
    decide_false, Bool.or_self, Bool.and_false, Bool.false_and, run_pure]

/-- The token that begins with a character is scanned once gaps are passed over and blocks are
closed. -/
theorem run_next (hgap : (skipGap (s.size + 1)).run s = .ok ((), s₁))
    (hkeys : dropStaleKeys.run s₁ = .ok ((), s₂))
    (hblocks : (unroll s₂.mark.column).run s₂ = .ok ((), s₃)) (hrest : s₃.rest = c :: rest)
    (hfirst : s₃.mark.column ≠ 0 ∨ BeginsLine c rest)
    (hcolumn : s₃.indent ≤ (s₃.mark.column : Int)) :
    next.run s =
      (fetchFrom c).run { s₃ with atLineStart := false } >>= fun x => .ok (false, x.2) := by
  have hdirective : ¬ (s₃.mark.column = 0 ∧ c = '%') := by
    rintro ⟨hzero, hc⟩
    exact hfirst.elim (· hzero) (·.ne_percent hc)
  have hmarker : atDocumentMarker.run { s₃ with atLineStart := false } =
      .ok (false, { s₃ with atLineStart := false }) :=
    hfirst.elim (run_atDocumentMarker_of_column { s₃ with atLineStart := false })
      (run_atDocumentMarker_of_beginsLine hrest)
  have hin : ¬ (s₃.dialect = .modern ∧ (s₃.mark.column : Int) < s₃.indent) :=
    fun h => absurd hcolumn (Int.not_le.mpr h.2)
  rw [hrest] at hmarker
  simp only [next, StateT.run_bind, run_bound, ok_bind, hgap, hkeys, run_column, hblocks, run_get,
    hrest, run_modify, hdirective, if_false, hmarker, Bool.false_eq_true, hin]
  rfl

/-- The next token in a state with nothing half done: what begins to the left of blocks closes
them. -/
theorem exists_next {before : List Token} (inner : List Nat) {n : Nat}
    (hgap : (skipGap (s.size + 1)).run s = .ok ((), s₁)) (hsteady : s₁.Steady before)
    (hblocks : s₁.IsIn (inner ++ cols) ∨ s₁.IsPast (inner ++ cols))
    (hmark : s₁.mark.column = n) (hcols : innermost cols ≤ n) (hinner : ∀ c ∈ inner, n < c)
    (hrest : s₁.rest = c :: rest) (hfirst : n ≠ 0 ∨ BeginsLine c rest) :
    ∃ s', next.run s = (fetchFrom c).run s' >>= (fun x => .ok (false, x.2)) ∧
      s'.Ready cols (List.replicate inner.length .blockEnd ++ before) (c :: rest) ∧
      s'.keyAllowed = s₁.keyAllowed ∧ s'.mark.column = n ∧
      (s'.IsIn cols ∨ innermost cols < n) := by
  subst hmark
  obtain ⟨k, hstale, hrequired⟩ := exists_dropStaleKeys hsteady
  have hinner' : ∀ c ∈ inner, (s₁.mark.column : Int) < (c : Int) :=
    fun c hc => Int.ofNat_lt.mpr (hinner c hc)
  rcases run_unroll (s := s₁.withKeys [k]) hsteady.flowLevel hblocks hcols hinner' with
    hunroll | ⟨rfl, hcolumn, hpast, hunroll⟩
  · refine ⟨_, run_next hgap hstale hunroll hrest hfirst hcols, ?_, rfl, rfl, .inl ⟨rfl, rfl⟩⟩
    exact { steady_closed (hsteady.withKeys hrequired) cols inner.length with
      rest := hrest
      blocks := .inl ⟨rfl, rfl⟩
      column := hcols }
  · have hindent : (s₁.withKeys [k]).indent ≤ (s₁.mark.column : Int) := by
      rw [hpast.1]
      exact hcolumn
    refine ⟨_, run_next hgap hstale hunroll hrest hfirst hindent, ?_, rfl, rfl, .inr hcolumn⟩
    exact { hsteady with
      keys := ⟨k, rfl, hrequired⟩
      rest := hrest
      blocks := .inr hpast
      column := hindent }

end Next

/-- From the end of a line to the contents of the next one. -/
theorem exists_skipGap (h : s.Between cols ts text) (htext : Dense (contents text)) :
    ∃ s₁ inner before, (skipGap (s.size + 1)).run s = .ok ((), s₁) ∧ s₁.Steady before ∧
      (s₁.IsIn (inner ++ cols) ∨ s₁.IsPast (inner ++ cols)) ∧
      (∀ c ∈ inner, indentation text < c) ∧ ts = List.replicate inner.length .blockEnd ++ before ∧
      s₁.rest = contents text ∧ s₁.mark.column = indentation text ∧ s₁.keyAllowed = true ∧
      s₁.rest.length ≤ s.rest.length := by
  obtain ⟨inner, before, hblocks, hinner, hsteady, hts⟩ := h.blocks
  rcases h.place with hrest | ⟨hrest, hcolumn, hallowed⟩
  · have hsize := hsteady.size
    rw [hrest, List.length_cons] at hsize
    refine ⟨_, inner, before, run_skipGap_line hsteady.dialect hsteady.flowLevel
      (Nat.succ_lt_succ hsize) hrest htext, (hsteady.breakLine.allow true).advance _, hblocks,
      hinner, hts, ?_, Nat.zero_add _, rfl, ?_⟩
    · rw [← drop_indentation]
      exact congrArg (List.drop (indentation text)) (Cursor.rest_breakLine hrest)
    · exact Nat.le_trans (Cursor.length_rest_advance _ _) (Cursor.length_rest_breakLine s)
  · exact ⟨s, inner, before, run_skipGap_of_dense hsteady.dialect (hrest ▸ htext), hsteady, hblocks,
      hinner, hts, hrest, hcolumn, hallowed, Nat.le_refl _⟩

/-- The token at the beginning of a line. -/
theorem exists_next_line {c : Char} {rest : List Char} (h : s.Between cols ts text)
    (htext : contents text = c :: rest) (hdense : Dense (c :: rest))
    (hcols : innermost cols ≤ indentation text)
    (hfirst : indentation text ≠ 0 ∨ BeginsLine c rest) :
    ∃ s', next.run s = (fetchFrom c).run s' >>= (fun x => .ok (false, x.2)) ∧
      s'.Ready cols ts (c :: rest) ∧ s'.keyAllowed = true ∧ s'.mark.column = indentation text ∧
      (s'.IsIn cols ∨ innermost cols < indentation text) ∧
      (c :: rest).length ≤ s.rest.length := by
  obtain ⟨s₁, inner, before, hgap, hsteady, hblocks, hinner, rfl, hrest, hcolumn, hallowed, hle⟩ :=
    exists_skipGap h (htext ▸ hdense)
  rw [htext] at hrest
  obtain ⟨s', hnext, hready, hallowed', hcolumn', hin⟩ :=
    exists_next inner hgap hsteady hblocks hcolumn hcols hinner hrest hfirst
  exact ⟨s', hnext, hready, hallowed'.trans hallowed, hcolumn', hin, hrest ▸ hle⟩

/-- The token behind a blank on the line. -/
theorem exists_next_value {c : Char} {rest : List Char} (h : s.Awaits cols ts (' ' :: c :: rest))
    (hdense : Dense (c :: rest)) :
    ∃ s', next.run s = (fetchFrom c).run s' >>= (fun x => .ok (false, x.2)) ∧
      s'.Ready cols ts (c :: rest) ∧ innermost cols + 1 < s'.mark.column := by
  have hrest : s.rest = ' ' :: c :: rest := h.rest
  have hone : indentation (' ' :: c :: rest) = 1 := indentation_blanks 1 hdense.head?_ne
  have hcontents : contents (' ' :: c :: rest) = c :: rest := contents_blanks 1 hdense.head?_ne
  have hsize := h.size
  rw [hrest, List.length_cons, List.length_cons] at hsize
  have hgap := run_skipGap_blanks h.dialect (Nat.lt_succ_of_le (by omega : _ ≤ s.size)) h.rest
    (by rw [hcontents]; exact hdense)
  rw [hone] at hgap
  have hcolumn := h.column
  obtain ⟨s', hnext, hready, -, hcolumn', -⟩ := exists_next (n := s.mark.column + 1) []
    hgap (h.toSteady.advance 1) h.blocks rfl (by omega) (fun _ hc => nomatch hc)
    (Cursor.rest_advance_one hrest) (.inl (Nat.succ_ne_zero _))
  exact ⟨s', hnext, hready, by omega⟩

/-! ### Scalars in blocks -/

theorem run_unrollColumns (hblocks : s.IsIn cols ∨ s.IsPast cols) :
    unrollColumns.run s =
      .ok ((), s.within cols) := by
  rcases hblocks with ⟨hindent, henclosing⟩ | ⟨hindent, henclosing⟩
  · have hself : s.within cols = s := by
      rw [Cursor.within, ← hindent, ← henclosing]
    rw [hself, unrollColumns, run_modify, henclosing]
    cases cols with
    | nil => rfl
    | cons c cols => rfl
  · rw [unrollColumns, run_modify, henclosing]
    rfl

/-- Whether nothing but a key may stand here. -/
def mustBeKey (s : Cursor) : Bool :=
  s.indent = s.mark.column && match s.enclosing with
    | e :: _ => e.isBlock
    | [] => false

theorem run_saveKey (hdialect : s.dialect = .modern) (hflow : s.flowLevel = 0)
    (hallowed : s.keyAllowed = true) :
    saveKey.run s =
      .ok ((), s.withKeys (⟨true, mustBeKey s, s.count, s.mark⟩ :: s.keys.tail)) := by
  simp only [saveKey, StateT.run_bind, run_get, ok_bind, hallowed, if_true, hdialect, hflow,
    reduceCtorEq, if_false, decide_true, decide_false, Bool.true_and, Bool.false_or, run_modify,
    Cursor.withKeys]
  rfl

/-- What stands to the right of the innermost block need not be a key. -/
theorem exists_saveKey (h : s.Ready cols ts text) (hcolumn : innermost cols < s.mark.column) :
    ∃ k, saveKey.run s = .ok ((), s.withKeys [k]) ∧
      (k.isPossible && k.isRequired) = false := by
  obtain ⟨k, hk, hrequired⟩ := h.keys
  by_cases hallowed : s.keyAllowed = true
  · have hright : mustBeKey s = false := by
      rcases h.blocks with ⟨hindent, -⟩ | ⟨-, henclosing⟩
      · rw [mustBeKey, hindent, decide_eq_false (Int.ne_of_lt hcolumn), Bool.false_and]
      · rw [mustBeKey, henclosing, Bool.and_false]
    refine ⟨⟨true, false, s.count, s.mark⟩, ?_, rfl⟩
    rw [run_saveKey h.dialect h.flowLevel hallowed, hk, List.tail_cons, hright]
  · refine ⟨k, ?_, hrequired⟩
    have hself : s.withKeys [k] = s := by rw [← hk]; rfl
    rw [hself]
    simp only [saveKey, StateT.run_bind, run_get, ok_bind, hallowed, Bool.false_eq_true, if_false,
      run_pure]

theorem run_fetchNode (read : Scan Token) {s₁ s₂ : Cursor} {t : Token}
    (hkey : saveKey.run s = .ok ((), s₁))
    (hread : read.run (s₁.allow false) = .ok (t, s₂)) :
    (fetchNode read).run s = .ok ((), s₂.push t) := by
  simp only [fetchNode, StateT.run_bind, hkey, ok_bind, run_allowKey, hread, run_emit]

end Scan

end Yaml

end PlatformProxy
