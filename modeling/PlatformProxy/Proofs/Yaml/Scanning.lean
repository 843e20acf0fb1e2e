import PlatformProxy.Proofs.Yaml.Texts

/-!
# The tokens of a written document

A value is scanned to its tokens whatever tokens came before it, and whatever follows it, if that
is not further to the right than the block of the value. The proof follows the tree that is written.

## Main definitions

* `Yaml.Tree.Legible` — trees that are written so that they can be read
* `Yaml.valueTokens`, `Yaml.pairsTokens` — the tokens of values and pairs

## Main results

* `Yaml.tokenize_documentText` — the tokens of a document
-/

namespace PlatformProxy

namespace Yaml

mutual

/-- Words and keys are words, texts keep their lines, and mappings have pairs. -/
def Tree.Legible : Tree → Prop
  | .word s => IsKey s.toList
  | .text s => KeepsLines s
  | .sequence items => ∀ s ∈ items, KeepsLines s
  | .mapping pairs => pairs ≠ [] ∧ ArePairs pairs

def ArePairs : List (String × Tree) → Prop
  | [] => True
  | p :: rest => IsPair p ∧ ArePairs rest

def IsPair : String × Tree → Prop
  | (key, value) => IsKey key.toList ∧ value.Legible

end

mutual

/-- The tokens of a value. -/
def valueTokens : Tree → List Token
  | .word s => [.scalar s.toList .plain]
  | .text s => [textToken s]
  | .sequence [] => [.flowSequenceStart, .flowSequenceEnd]
  | .sequence items => items.flatMap fun s => [.blockEntry, textToken s]
  | .mapping pairs => .blockMappingStart :: pairsTokens pairs ++ [.blockEnd]

/-- The tokens of the pairs of a mapping. -/
def pairsTokens : List (String × Tree) → List Token
  | [] => []
  | p :: rest => pairTokens p ++ pairsTokens rest

def pairTokens : String × Tree → List Token
  | (key, value) => .key :: .scalar key.toList .plain :: .value :: valueTokens value

end

namespace Cursor

variable {s : Cursor} {n : Nat} {cols : List Nat} {ts : List Token} {text : List Char}

/-- What follows on the left of a block ends it. -/
theorem Between.leave (h : s.Between (n :: cols) ts text) (htext : indentation text < n) :
    s.Between cols (.blockEnd :: ts) text := by
  obtain ⟨inner, before, hblocks, hinner, hsteady, hts⟩ := h.blocks
  refine ⟨h.place, inner ++ [n], before, ?_, ?_, hsteady, ?_⟩
  · rwa [List.append_assoc, List.singleton_append]
  · intro c hc
    rcases List.mem_append.mp hc with hc | hc
    · exact hinner c hc
    · rwa [List.mem_singleton.mp hc]
  · rw [hts, List.length_append, List.length_singleton, List.replicate_succ]
    rfl

theorem Resumes.mono {m : Nat} (h : Resumes n text) (hle : n ≤ m) : Resumes m text :=
  ⟨Nat.le_trans h.left hle, h.dense⟩

/-- A line that begins in the column of a block goes on with it. -/
theorem resumes_blanks {line : List Char} (h : Dense line) : Resumes n (blanks n ++ line) where
  left := Nat.le_of_eq (indentation_blanks n h.head?_ne)
  dense := by rwa [blanks, contents_blanks n h.head?_ne]

theorem resumes_key {key rest : List Char} (h : IsKey key) :
    Resumes n (blanks n ++ (key ++ rest)) := by
  obtain ⟨c, w, rfl, hc⟩ := h.exists_cons
  exact resumes_blanks (dense_of_isAlphanum hc _)

end Cursor

/-- What a block goes on with, or what follows it. -/
theorem resumes_pairs {pairs : List (String × Tree)} {n : Nat} {text : List Char}
    (h : ArePairs pairs) (htext : Cursor.Resumes n text) :
    Cursor.Resumes n (pairsChars n pairs ++ text) := by
  cases pairs with
  | nil => exact htext
  | cons p rest =>
    obtain ⟨key, value⟩ := p
    have hchars : pairsChars n ((key, value) :: rest) ++ text =
        blanks n ++ (key.toList ++ (':' :: valueChars n value ++ (pairsChars n rest ++ text))) := by
      simp only [pairsChars, pairChars, List.append_assoc, List.cons_append]
    rw [hchars]
    exact Cursor.resumes_key h.1.1

namespace Scan

variable {s : Cursor} {column : Nat} {cols : List Nat} {ts : List Token} {text : List Char}

/-- The entries of a sequence, in the column of the mapping around it. -/
theorem exists_entries {items : List String} (hitems : ∀ s ∈ items, KeepsLines s)
    (h : s.Between (column :: cols) ts
      ((items.flatMap fun s => blanks column ++ '-' :: ' ' :: textChars column s) ++ text))
    (htext : Cursor.Resumes column text) :
    ∃ s', Scans s s' ∧ s'.Between (column :: cols)
      ((items.flatMap fun s => [.blockEntry, textToken s]).reverse ++ ts) text := by
  induction items generalizing s ts with
  | nil => exact ⟨s, .refl s, h⟩
  | cons item items ih =>
    obtain ⟨hitem, hitems⟩ := List.forall_mem_cons.mp hitems
    let rest := (items.flatMap fun s => blanks column ++ '-' :: ' ' :: textChars column s) ++ text
    have hrest : Cursor.Resumes column rest := by
      cases items with
      | nil => exact htext
      | cons next items =>
        simp only [rest, List.flatMap_cons, List.append_assoc, List.cons_append]
        exact Cursor.resumes_blanks (dense_cons.mpr (by decide))
    have hchars : ((item :: items).flatMap fun s =>
        blanks column ++ '-' :: ' ' :: textChars column s) ++ text =
        blanks column ++ '-' :: ' ' :: (textChars column item ++ rest) := by
      simp only [rest, List.flatMap_cons, List.append_assoc, List.cons_append]
    obtain ⟨s₁, hscans₁, hawaits⟩ := exists_dash h hchars
    obtain ⟨s₂, hscans₂, hbetween⟩ := exists_text hitem hawaits hrest
    obtain ⟨s₃, hscans₃, hend⟩ := ih hitems hbetween
    refine ⟨s₃, hscans₁.trans (hscans₂.trans hscans₃), ?_⟩
    simpa only [List.flatMap_cons, List.reverse_append, List.reverse_cons, List.reverse_nil,
      List.nil_append, List.append_assoc, List.cons_append] using hend

theorem exists_word {w : String} (hw : IsKey w.toList)
    (h : s.Awaits (column :: cols) ts (' ' :: w.toList ++ ['\n'] ++ text))
    (htext : Cursor.Resumes column text) :
    ∃ s', Scans s s' ∧ s'.Between (column :: cols) (.scalar w.toList .plain :: ts) text := by
  obtain ⟨c, cs, hcs, hc⟩ := hw.exists_cons
  have hplain := hw.isPlain
  rw [hcs] at hplain h ⊢
  rw [List.append_assoc] at h
  exact exists_plain hplain (ne_of_isAlphanum hc (by decide)) (not_mem_leadingIndicators hc)
    (fun hsep => absurd hsep (not_separator_of_isAlphanum hc)) h htext

/-- A colon in front of a value ends its key. -/
theorem isGap_valueChars (indent : Nat) (v : Tree) (text : List Char) :
    isGap .modern (valueChars indent v ++ text).head? = true := by
  rcases v with w | t | (_ | ⟨item, items⟩) | pairs <;> rfl

mutual

/-- A value behind its colon. -/
theorem exists_value {s : Cursor} {column : Nat} {cols : List Nat} {ts : List Token}
    {text : List Char}
    {v : Tree} (hv : v.Legible)
    (h : s.Awaits (column :: cols) ts (valueChars column v ++ text))
    (htext : Cursor.Resumes column text) :
    ∃ s', Scans s s' ∧
      s'.Between (column :: cols) ((valueTokens v).reverse ++ ts) text := by
  cases v with
  | word w => exact exists_word hv h htext
  | text t => exact exists_text hv h htext
  | sequence items =>
    cases items with
    | nil => exact exists_brackets h
    | cons item items => exact exists_entries hv h.between htext
  | mapping pairs =>
    obtain ⟨hne, hpairs⟩ := hv
    cases pairs with
    | nil => exact absurd rfl hne
    | cons p rest =>
      have hright : Cursor.Resumes (column + 2) text := htext.mono (Nat.le_add_right _ 2)
      have hbetween : s.Between (column :: cols) ts
          (pairChars (column + 2) p ++ (pairsChars (column + 2) rest ++ text)) := by
        rw [← List.append_assoc]
        exact h.between
      obtain ⟨s₁, hscans₁, hpair⟩ := exists_pair hpairs.1 hbetween
        (.new ts (Int.ofNat_lt.mpr (Nat.lt_add_of_pos_right Nat.two_pos)))
        (resumes_pairs hpairs.2 hright)
      obtain ⟨s₂, hscans₂, hrest⟩ := exists_pairs hpairs.2 hpair hright
      refine ⟨s₂, hscans₁.trans hscans₂, ?_⟩
      have hleave := hrest.leave
        (Nat.lt_of_le_of_lt htext.left (Nat.lt_add_of_pos_right Nat.two_pos))
      simpa only [valueTokens, pairsTokens, List.reverse_append, List.reverse_cons,
        List.reverse_nil, List.nil_append, List.append_assoc, List.cons_append] using hleave

/-- The pairs of a mapping, behind the first. -/
theorem exists_pairs {s : Cursor} {column : Nat} {cols : List Nat} {ts : List Token}
    {text : List Char}
    {pairs : List (String × Tree)} (hpairs : ArePairs pairs)
    (h : s.Between (column :: cols) ts (pairsChars column pairs ++ text))
    (htext : Cursor.Resumes column text) :
    ∃ s', Scans s s' ∧
      s'.Between (column :: cols) ((pairsTokens pairs).reverse ++ ts) text := by
  cases pairs with
  | nil => exact ⟨s, .refl s, h⟩
  | cons p rest =>
    rw [pairsChars, List.append_assoc] at h
    obtain ⟨s₁, hscans₁, hpair⟩ := exists_pair hpairs.1 h (.same cols ts)
      (resumes_pairs hpairs.2 htext)
    obtain ⟨s₂, hscans₂, hrest⟩ := exists_pairs hpairs.2 hpair htext
    refine ⟨s₂, hscans₁.trans hscans₂, ?_⟩
    rwa [pairsTokens, List.reverse_append, List.append_assoc]

/-- A pair, and with it the beginning of its mapping if it is the first one. -/
theorem exists_pair {s : Cursor} {column : Nat} {cols : List Nat} {ts : List Token}
    {text : List Char}
    {p : String × Tree} {outer : List Nat} {before : List Token} (hp : IsPair p)
    (h : s.Between outer before (pairChars column p ++ text))
    (hbegins : Begins column outer before (column :: cols) ts)
    (htext : Cursor.Resumes column text) :
    ∃ s', Scans s s' ∧ s'.Between (column :: cols) ((pairTokens p).reverse ++ ts) text := by
  obtain ⟨key, value⟩ := p
  obtain ⟨hkey, hvalue⟩ := hp
  obtain ⟨s₁, hscans₁, hawaits⟩ := exists_key h
    (show pairChars column (key, value) ++ text =
      blanks column ++ (key.toList ++ ':' :: (valueChars column value ++ text)) by
        simp only [pairChars, List.append_assoc, List.cons_append])
    hkey (isGap_valueChars column value text) hbegins
  obtain ⟨s₂, hscans₂, hbetween⟩ := exists_value hvalue hawaits htext
  refine ⟨s₂, hscans₁.trans hscans₂, ?_⟩
  simpa only [pairTokens, List.reverse_cons, List.append_assoc, List.cons_append,
    List.nil_append] using hbetween

end

end Scan

/-- At the beginning of a text that is not indented. -/
theorem Cursor.between_start {text : List Char} (htext : Cursor.Resumes 0 text) :
    (Cursor.start .modern text).Between [] [] text where
  place := by
    rcases cases_indentation text with ⟨rest, rfl⟩ | ⟨hzero, hself⟩
    · exact absurd htext.left (Nat.not_succ_le_zero _)
    · exact .inr ⟨hself.symm, hzero.symm, rfl⟩
  blocks := ⟨[], [], .inl ⟨rfl, rfl⟩, fun _ hc => (nomatch hc),
    { dialect := rfl
      flowLevel := rfl
      tokens := rfl
      count := rfl
      size := Nat.le_refl _
      keys := ⟨Cursor.noKey, rfl, rfl⟩ }, rfl⟩

/-- The tokens of a document are those of its pairs, as a mapping. -/
theorem tokenize_documentText {pairs : List (String × Tree)} (hne : pairs ≠ [])
    (h : ArePairs pairs) :
    tokenize .modern (Tree.documentText pairs).toList =
      .ok (.blockMappingStart :: pairsTokens pairs ++ [.blockEnd, .streamEnd]) := by
  obtain ⟨p, rest, rfl⟩ := List.exists_cons_of_ne_nil hne
  have hend : Cursor.Resumes 0 [] := ⟨Nat.le_refl 0, dense_nil⟩
  have htext : (Tree.documentText (p :: rest)).toList =
      pairChars 0 p ++ (pairsChars 0 rest ++ []) := by
    rw [Tree.documentText, String.toList_ofList, pairsChars, List.append_nil]
  have hstart : Cursor.Resumes 0 (pairChars 0 p ++ (pairsChars 0 rest ++ [])) := by
    rw [← List.append_assoc]
    exact resumes_pairs h hend
  obtain ⟨s₁, hscans₁, hpair⟩ := Scan.exists_pair h.1 (Cursor.between_start hstart)
    (.new [] (show innermost [] < ((0 : Nat) : Int) by decide)) (resumes_pairs h.2 hend)
  obtain ⟨s₂, hscans₂, hpairs⟩ := Scan.exists_pairs h.2 hpair hend
  obtain ⟨s₃, hlast, htokens⟩ := Scan.exists_streamEnd hpairs
  rw [htext]
  generalize pairChars 0 p ++ (pairsChars 0 rest ++ []) = text at *
  obtain ⟨fuel, hfuel, hall⟩ := (hscans₁.trans hscans₂).exists_all
    (show text.length < 2 * text.length + 2 by omega)
  obtain ⟨fuel, rfl⟩ := Nat.exists_eq_succ_of_ne_zero (Nat.ne_of_gt (Nat.zero_lt_of_lt hfuel))
  have hrun : (Scan.all (fuel + 1)).run s₂ = .ok ((), s₃) := by
    simp only [Scan.all, StateT.run_bind, hlast, Scan.ok_bind, if_true, Scan.run_pure]
  rw [hrun] at hall
  have hmodern : ¬ (Dialect.modern = .classic ∧ text.any isControl = true) := by
    rintro ⟨hclassic, -⟩
    cases hclassic
  rw [tokenize, if_neg hmodern, hall]
  simp only [htokens, pairsTokens, List.reverse_cons, List.reverse_append, List.reverse_reverse,
    List.append_assoc, List.cons_append, List.nil_append, List.reverse_nil]

end Yaml

end PlatformProxy
