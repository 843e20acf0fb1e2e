import Mathlib.Data.List.TakeWhile
import PlatformProxy.Proofs.Settings.Overriding
import PlatformProxy.Proofs.Text.Numeral
import PlatformProxy.Proofs.Yaml.Parsing

/-!
# What saved scalars are read as

A number is saved as its numeral. The reader takes what does not fit in 63 bits for a
floating-point number, and gives back the whole number nearest to it.

A text is written plain if it reads as nothing but a text. The writer has rules of its own for what
reads as something else, and they are not quite those of the reader: a number that is too large to
be finite is a text to the writer, and a number to the reader. No such number is printed as it was
written, so that every text the reader takes for something else is lost.

## Main definitions

* `Settings.rereadNumber`, `Settings.rereadText` — what comes back

## Main results

* `Settings.exists_numberValue`, `Settings.exists_textValue` — every number and every text can be
  read
* `Settings.rereadText_eq_iff` — the texts that come back as they are
-/

namespace PlatformProxy

namespace Floating

/-! ### Decimal numerals -/

theorem toLower_of_isDigit {c : Char} (h : c.isDigit = true) : c.toLower = c := by
  have hle := UInt32.le_iff_toNat_le.mp (Char.le_def.mp (Text.bounds_of_isDigit h).2)
  have hnine : ('9' : Char).val.toNat = 57 := rfl
  have hcapital : ¬ (65 ≤ c.val.toNat ∧ c.val.toNat ≤ 90) := by omega
  refine dif_neg fun hc => hcapital ?_
  exact ⟨UInt32.le_iff_toNat_le.mp hc.1, UInt32.le_iff_toNat_le.mp hc.2⟩

theorem spanDigits_decimal (n : Nat) : spanDigits (Text.decimal n) = (Text.decimal n, []) := by
  have hall : ∀ c ∈ Text.decimal n, (Text.digitValue? c).isSome = true := by
    intro c hc
    rw [Text.digitValue?, if_pos (Text.bounds_of_isDigit (Text.isDigit_of_mem_decimal hc))]
    rfl
  rw [spanDigits, List.span_eq_takeWhile_dropWhile, List.takeWhile_eq_self_iff.mpr hall,
    List.dropWhile_eq_nil_iff.mpr hall]

theorem readDecimal?_decimal (n : Nat) : readDecimal? (Text.decimal n) = some ⟨n, 0⟩ := by
  simp only [readDecimal?, spanDigits_decimal, Text.decimal_ne_nil, false_and, if_false,
    readExponent?, digitsToNat, List.append_nil, Text.digitsValue_decimal, Option.map_some,
    Option.getD_some, List.length_nil]
  rfl

theorem ofDecimal_of_exponent_zero {n : Nat} (hn : n ≠ 0) :
    ofDecimal .double false n 0 = ofNat .double n := by
  have hbelow : ¬ ((Nat.pow 2 Format.double.exponentBits : Nat) : Int) < 0 := by decide
  have habove : ¬ (0 : Int) < -(Nat.pow 2 Format.double.exponentBits + Nat.log2 n : Int) := by
    have hnonneg : (0 : Int) ≤ Nat.pow 2 Format.double.exponentBits := Int.natCast_nonneg _
    omega
  rw [ofDecimal, if_neg hn, if_neg hbelow, if_neg habove]
  exact congrArg (ofRatio .double false · 1) (Nat.mul_one n)

/-- A numeral is read as the nearest number. -/
theorem read?_decimal {n : Nat} (hn : n ≠ 0) :
    read? .double (Text.decimal n) = some (ofNat .double n) := by
  obtain ⟨c, rest, hcons⟩ := List.exists_cons_of_ne_nil (Text.decimal_ne_nil n)
  have hc : c.isDigit = true := Text.isDigit_of_mem_decimal (hcons ▸ List.mem_cons_self)
  have hbody : signAndBody (Text.decimal n) = (false, Text.decimal n) := by
    rw [signAndBody]
    · exact Text.decimal_ne_cons n (by decide)
    · exact Text.decimal_ne_cons n (by decide)
  have hword : ∀ w : String, w.toList.head?.all (·.isDigit) = false →
      String.ofList ((Text.decimal n).map Char.toLower) ≠ w := by
    rintro w hw rfl
    rw [String.toList_ofList, hcons, List.map_cons, toLower_of_isDigit hc] at hw
    exact absurd hw (by simp [hc])
  rw [read?_eq, hbody]
  dsimp only
  rw [if_neg (not_or.mpr ⟨hword "inf" (by decide), hword "infinity" (by decide)⟩),
    if_neg (hword "nan" (by decide)), readDecimal?_decimal, Option.map_some,
    ofDecimal_of_exponent_zero hn]

end Floating

namespace Settings

open Yaml (Tree Form formOf textNode valueNode pairsNodes)

/-! ### Numbers -/

/-- What a saved number comes back as. -/
def rereadNumber (n : Nat) : Nat :=
  if n < 2 ^ 63 then n else Value.nearestNatural (.ofNat .double n)

theorem Scalar.isReal_decimal {n : Nat} (hn : n ≠ 0) : isReal (toString n) = true := by
  obtain ⟨c, rest, hcons⟩ := List.exists_cons_of_ne_nil (Text.decimal_ne_nil n)
  have hc : c.isDigit = true := Text.isDigit_of_mem_decimal (hcons ▸ List.mem_cons_self)
  have hchars : (toString n).toList = Text.decimal n := rfl
  have hany : (Text.decimal n).any Char.isDigit = true :=
    List.any_eq_true.mpr ⟨c, hcons ▸ List.mem_cons_self, hc⟩
  rw [isReal, hchars, Floating.read?_decimal hn, hany, Option.isSome_some, Bool.and_true,
    Bool.or_true]

theorem Scalar.ofPlain_decimal (n : Nat) :
    ofPlain (toString n) = if n < 2 ^ 63 then .integer n else .real (toString n) := by
  have hmarked : markedInteger? (Text.decimal n) = none := by
    unfold markedInteger?
    split
    · rename_i digits hmark
      exact absurd rfl (Text.ne_of_mem_decimal (hmark ▸ List.mem_cons_of_mem _ List.mem_cons_self)
        (show 'x'.isDigit = false by decide))
    · rename_i digits hmark
      exact absurd rfl (Text.ne_of_mem_decimal (hmark ▸ List.mem_cons_of_mem _ List.mem_cons_self)
        (show 'o'.isDigit = false by decide))
    · rename_i digits hmark
      exact absurd rfl (Text.ne_of_mem_decimal (hmark ▸ List.mem_cons_self)
        (show '+'.isDigit = false by decide))
    · rfl
  have hchars : (toString n).toList = Text.decimal n := rfl
  have hne : ∀ w : String, w.toList = [] ∨ w.toList.all Char.isDigit = false → toString n ≠ w := by
    rintro w hw rfl
    rcases hw with hnil | hall
    · exact Text.decimal_ne_nil n hnil
    · have hdigits : (Text.decimal n).all Char.isDigit = true :=
        List.all_eq_true.mpr fun c hc => Text.isDigit_of_mem_decimal hc
      exact Bool.false_ne_true (hall.symm.trans hdigits)
  rw [ofPlain, hchars, hmarked]
  dsimp only
  have hnothing : ¬ (toString n = "" ∨ toString n = "~" ∨ toString n = "null") :=
    not_or.mpr ⟨hne "" (.inl rfl), not_or.mpr ⟨hne "~" (.inr rfl), hne "null" (.inr rfl)⟩⟩
  rw [if_neg hnothing, if_neg (hne "true" (.inr rfl)), if_neg (hne "false" (.inr rfl)),
    Text.readInt64?_decimal]
  by_cases h : n < 2 ^ 63
  · rw [if_pos h, if_pos h]
  · rw [if_neg h, if_neg h]
    dsimp only
    rw [if_pos (isReal_decimal (by omega))]

/-- Every saved number is read, as one that may be another. -/
theorem exists_numberValue (n : Nat) :
    ∃ v, Value.ofNode? (.scalar (toString n) .plain none) = some v ∧ (∀ ms, v ≠ .table ms) ∧
      ∀ bound, rereadNumber n < bound → v.natural? bound = some (rereadNumber n) := by
  have hread : Value.ofNode? (.scalar (toString n) .plain none) =
      (Scalar.ofPlain (toString n)).value? := by
    rw [Value.ofNode?]
    rfl
  rw [hread, Scalar.ofPlain_decimal, rereadNumber]
  by_cases h : n < 2 ^ 63
  · rw [if_pos h, if_pos h]
    refine ⟨.integer n, rfl, nofun, fun bound hbound => ?_⟩
    rw [Value.natural?, if_pos (Int.natCast_nonneg n), Int.toNat_natCast, Option.filter_some,
      if_pos (decide_eq_true hbound)]
  · rw [if_neg h, if_neg h]
    have hreal : Floating.read? .double (toString n).toList = some (.ofNat .double n) :=
      Floating.read?_decimal (by omega)
    refine ⟨.real (.ofNat .double n), ?_, nofun, fun bound hbound => ?_⟩
    · rw [Scalar.value?, hreal]
      rfl
    · rw [Value.natural?, Option.filter_some, if_pos (decide_eq_true hbound)]

theorem rereadNumber_lt (n : UInt64) : rereadNumber n.toNat < UInt64.size := by
  have hn : n.toNat < UInt64.size := n.toNat_lt
  have hpos : 0 < UInt64.size := by decide
  rw [rereadNumber]
  split
  · exact hn
  · rw [Value.nearestNatural]
    split
    · exact hpos
    · split
      · exact Nat.lt_of_le_of_lt (Nat.min_le_right _ _) (Nat.sub_one_lt_of_lt hpos)
      · exact Nat.sub_one_lt_of_lt hpos

/-! ### Texts -/

/-- What a saved text comes back as. -/
def rereadText (t : String) : String := ((Value.ofNode? (textNode t)).bind Value.text?).getD t

theorem formOf_ne_plain {t : String} (h : Yaml.readsOtherwise t = true) : formOf t ≠ .plain :=
  fun hplain => Bool.false_ne_true ((Yaml.of_formOf_plain hplain).1.symm.trans h)

theorem bounds_of_readInt64? {base : Nat} {cs : List Char} {i : Int}
    (h : Text.readInt64? base cs = some i) : -(2 ^ 63) ≤ i ∧ i < 2 ^ 63 := by
  have hmin : Int64.minValue.toInt = -(2 ^ 63) := by decide
  have hmax : Int64.maxValue.toInt = 2 ^ 63 - 1 := by decide
  rw [Text.readInt64?, Option.filter_eq_some_iff, hmin, hmax, Bool.and_eq_true, decide_eq_true_eq,
    decide_eq_true_eq] at h
  omega

theorem bounds_of_markedInteger? {cs : List Char} {i : Int}
    (h : Scalar.markedInteger? cs = some i) : -(2 ^ 63) ≤ i ∧ i < 2 ^ 63 := by
  unfold Scalar.markedInteger? at h
  split at h
  · exact bounds_of_readInt64? h
  · exact bounds_of_readInt64? h
  · exact bounds_of_readInt64? h
  · exact absurd h nofun

/-- What a plain scalar can be. -/
theorem Scalar.ofPlain_cases (t : String) :
    (∃ i, ofPlain t = .integer i ∧ -(2 ^ 63) ≤ i ∧ i < 2 ^ 63) ∨
      (t = "" ∨ t = "~" ∨ t = "null") ∨ (t = "true" ∨ t = "false") ∨
      (ofPlain t = .real t ∧ isReal t = true) ∨ ofPlain t = .text t := by
  unfold ofPlain
  split
  · rename_i i hmarked
    exact .inl ⟨i, rfl, bounds_of_markedInteger? hmarked⟩
  · split
    · rename_i hnothing
      exact .inr (.inl hnothing)
    · split
      · rename_i htrue
        exact .inr (.inr (.inl (.inl htrue)))
      · split
        · rename_i hfalse
          exact .inr (.inr (.inl (.inr hfalse)))
        · split
          · rename_i i hread
            exact .inl ⟨i, rfl, bounds_of_readInt64? hread⟩
          · split
            · rename_i hreal
              exact .inr (.inr (.inr (.inl ⟨rfl, hreal⟩)))
            · exact .inr (.inr (.inr (.inr rfl)))

/-- The words for numbers that are not finite. -/
def specialWords : List String :=
  [".inf", "+.inf", "-.inf", ".Inf", "+.Inf", "-.Inf", ".INF", "+.INF", "-.INF", ".nan", ".NaN",
    ".NAN"]

theorem Scalar.isReal_eq (t : String) :
    isReal t = (specialWords.contains t ||
      (t.toList.any Char.isDigit && (Floating.read? .double t.toList).isSome)) := by
  simp [isReal, specialWords, Bool.or_assoc]

/-- A text that is written plain is no truth value and not nothing, and what is a number has a
digit. -/
theorem Scalar.ofPlain_of_formOf {t : String} (h : formOf t = .plain) :
    (∃ i, ofPlain t = .integer i ∧ -(2 ^ 63) ≤ i ∧ i < 2 ^ 63) ∨
      (∃ x, ofPlain t = .real t ∧ t.toList.any Char.isDigit = true ∧
        Floating.read? .double t.toList = some x) ∨
      ofPlain t = .text t := by
  have hno : ∀ w : String, Yaml.readsOtherwise w = true → t ≠ w := by
    rintro w hw rfl
    exact formOf_ne_plain hw h
  rcases ofPlain_cases t with hint | ht | ht | ⟨hreal, ht⟩ | htext
  · exact .inl hint
  · rcases ht with ht | ht | ht <;> exact absurd ht (hno _ (by decide))
  · rcases ht with ht | ht <;> exact absurd ht (hno _ (by decide))
  · have hwords : ∀ w ∈ specialWords, t ≠ w := fun w hw =>
      hno w ((by decide : ∀ w ∈ specialWords, Yaml.readsOtherwise w = true) w hw)
    rw [isReal_eq, Bool.or_eq_true, Bool.and_eq_true, Option.isSome_iff_exists] at ht
    replace ht := ht.resolve_left fun hword =>
      hwords t (List.contains_iff_mem.mp hword) rfl
    obtain ⟨hdigit, x, hx⟩ := ht
    exact .inr (.inl ⟨x, hreal, hdigit, hx⟩)
  · exact .inr (.inr htext)

theorem ofNode?_textNode (t : String) :
    Value.ofNode? (textNode t) =
      if formOf t = .plain then (Scalar.ofPlain t).value? else some (.text t) := by
  rw [textNode, Value.ofNode?]
  cases formOf t <;> rfl

/-- Every saved text is read, as one that may be another. -/
theorem exists_textValue (t : String) :
    ∃ v, Value.ofNode? (textNode t) = some v ∧ (∀ ms, v ≠ .table ms) ∧
      v.text? = some (rereadText t) ∧ v.optionalText? = some (some (rereadText t)) := by
  have hscalar : ∃ v, Value.ofNode? (textNode t) = some v ∧
      ((∃ i, v = .integer i) ∨ (∃ x, v = .real x) ∨ ∃ s, v = .text s) := by
    rw [ofNode?_textNode]
    split
    · rename_i hform
      rcases Scalar.ofPlain_of_formOf hform with ⟨i, hint, -⟩ | ⟨x, hreal, -, hx⟩ | htext
      · exact ⟨.integer i, by rw [hint]; rfl, .inl ⟨i, rfl⟩⟩
      · exact ⟨.real x, by rw [hreal, Scalar.value?, hx]; rfl, .inr (.inl ⟨x, rfl⟩)⟩
      · exact ⟨.text t, by rw [htext]; rfl, .inr (.inr ⟨t, rfl⟩)⟩
    · exact ⟨.text t, rfl, .inr (.inr ⟨t, rfl⟩)⟩
  obtain ⟨v, hread, ⟨i, rfl⟩ | ⟨x, rfl⟩ | ⟨s, rfl⟩⟩ := hscalar <;>
  · refine ⟨_, hread, nofun, ?_⟩
    rw [rereadText, hread]
    exact ⟨rfl, rfl⟩

theorem rereadText_of_read {t : String} {v : Value} (h : Value.ofNode? (textNode t) = some v) :
    rereadText t = v.text?.getD t := by
  rw [rereadText, h, Option.bind_some]

theorem splitSign_decimal (n : Nat) :
    Yaml.Core.splitSign (Text.decimal n) = (false, Text.decimal n) := by
  rw [Yaml.Core.splitSign]
  · exact Text.decimal_ne_cons n (by decide)
  · exact Text.decimal_ne_cons n (by decide)

theorem magnitude?_decimal (n : Nat) : Yaml.Core.magnitude? (Text.decimal n) = some n := by
  have hsecond : ∀ c rest, c.isDigit = false → Text.decimal n ≠ '0' :: c :: rest :=
    fun c rest hc h =>
      Text.ne_of_mem_decimal (h ▸ List.mem_cons_of_mem _ List.mem_cons_self) hc rfl
  have hzeros : Yaml.Core.hasLeadingZeros (Text.decimal n) = false := by
    rw [Yaml.Core.hasLeadingZeros, splitSign_decimal]
    split
    · rename_i c rest hzero
      have hzero : Text.decimal n = '0' :: c :: rest := hzero
      rw [Text.eq_zero_of_decimal hzero] at hzero
      exact absurd hzero nofun
    · rfl
  rw [Yaml.Core.magnitude?, hzeros, if_neg Bool.false_ne_true, Text.baseValue?_decimal]
  · exact fun rest => hsecond 'x' rest (by decide)
  · exact fun rest => hsecond 'o' rest (by decide)
  · exact fun rest => hsecond 'b' rest (by decide)

theorem integer?_toString (i : Int) : Yaml.Core.integer? (toString i).toList = some i := by
  cases i with
  | ofNat n =>
    have hchars : (toString (Int.ofNat n)).toList = Text.decimal n := rfl
    rw [hchars, Yaml.Core.integer?, splitSign_decimal]
    dsimp only
    rw [magnitude?_decimal]
    rfl
  | negSucc n =>
    have hchars : (toString (Int.negSucc n)).toList = '-' :: Text.decimal (n + 1) :=
      String.toList_append
    rw [hchars, Yaml.Core.integer?, Yaml.Core.splitSign]
    dsimp only
    rw [magnitude?_decimal]
    rfl

theorem isWide_of_bounds {i : Int} (hlow : -(2 ^ 63) ≤ i) (hhigh : i < 2 ^ 63) (cs : List Char) :
    Yaml.Core.isWide cs i = true := by
  rw [Yaml.Core.isWide]
  split
  · exact decide_eq_true (by have : Nat.pow 2 127 = 2 ^ 127 := rfl; omega)
  · exact decide_eq_true (by have : Nat.pow 2 128 = 2 ^ 128 := rfl; omega)

/-- An integer that is printed is written between quotes. -/
theorem formOf_toString {i : Int} (hlow : -(2 ^ 63) ≤ i) (hhigh : i < 2 ^ 63) :
    formOf (toString i) ≠ .plain := by
  have hint : (Yaml.Core.integer? (toString i).toList).filter
      (Yaml.Core.isWide (toString i).toList) = some i := by
    rw [integer?_toString, Option.filter_some, isWide_of_bounds hlow hhigh, if_pos rfl]
  have hcore : Yaml.Core.ofPlain (toString i) ≠ .text (toString i) := by
    rw [Yaml.Core.ofPlain]
    split
    · exact nofun
    · rw [hint]
      cases Yaml.Core.flag? (toString i) <;> exact nofun
  apply formOf_ne_plain
  rw [Yaml.readsOtherwise, decide_eq_true hcore, Bool.true_or]

/-- A second sign is no part of a number. -/
theorem read?_plus_sign {c : Char} (hc : c = '+' ∨ c = '-') (rest : List Char) :
    Floating.read? .double ('+' :: c :: rest) = none := by
  have hword : ∀ w : String, w.toList.head? ≠ some c.toLower →
      String.ofList ((c :: rest).map Char.toLower) ≠ w := by
    rintro w hw rfl
    rw [String.toList_ofList] at hw
    exact hw rfl
  have hspan : Floating.spanDigits (c :: rest) = ([], c :: rest) := by
    rcases hc with rfl | rfl <;> rfl
  have hdecimal : Floating.readDecimal? (c :: rest) = none := by
    rcases hc with rfl | rfl <;> simp [Floating.readDecimal?, hspan]
  rw [Floating.read?_eq]
  have hbody : Floating.signAndBody ('+' :: c :: rest) = (false, c :: rest) := rfl
  rw [hbody]
  dsimp only
  rw [if_neg, if_neg, hdecimal, Option.map_none]
  · exact hword "nan" (by rcases hc with rfl | rfl <;> decide)
  · exact not_or.mpr ⟨hword "inf" (by rcases hc with rfl | rfl <;> decide),
      hword "infinity" (by rcases hc with rfl | rfl <;> decide)⟩

theorem read?_plus {rest : List Char} (hplus : rest.head? ≠ some '+')
    (hminus : rest.head? ≠ some '-') :
    Floating.read? .double ('+' :: rest) = Floating.read? .double rest := by
  have hbody : Floating.signAndBody rest = Floating.signAndBody ('+' :: rest) := by
    rw [Floating.signAndBody, Floating.signAndBody]
    · rintro body rfl
      exact hminus rfl
    · rintro body rfl
      exact hplus rfl
  rw [Floating.read?_eq, Floating.read?_eq, hbody]

/-- A number that is finite is one for the writer. -/
theorem real?_ne_none {cs : List Char} {x : Floating .double}
    (hx : Floating.read? .double cs = some x) (hfinite : x.isFinite = true) :
    Yaml.Core.real? cs ≠ none := by
  have hread : ∀ {p q r : Bool} {a b c : Floating .double} {body : List Char},
      Floating.read? .double body = some x → (if p then some a else if q then some b
        else if r then some c else (Floating.read? .double body).filter (·.isFinite)) ≠ none := by
    intro p q r a b c body hbody
    rw [hbody, Option.filter_some, hfinite, if_pos rfl]
    cases p <;> cases q <;> cases r <;> exact nofun
  by_cases hplus : ∃ body, cs = '+' :: body
  · obtain ⟨body, rfl⟩ := hplus
    have hsign : ∀ c, c = '+' ∨ c = '-' → body.head? ≠ some c := by
      intro c hc hhead
      obtain ⟨rest, rfl⟩ := List.head?_eq_some_iff.mp hhead
      rw [read?_plus_sign hc] at hx
      exact absurd hx nofun
    have hplus := hsign '+' (.inl rfl)
    have hminus := hsign '-' (.inr rfl)
    rw [read?_plus hplus hminus] at hx
    rw [Yaml.Core.real?, if_neg fun h => h.2.elim hplus hminus]
    exact hread hx
  · have hbody : ∀ body, cs = '+' :: body → False := fun body h => hplus ⟨body, h⟩
    have hhead : cs.head? ≠ some '+' := fun h => hplus (List.head?_eq_some_iff.mp h)
    rw [Yaml.Core.real?, if_neg fun h => hhead h.1]
    · exact hread hx
    · exact hbody

/-- The writer takes a number that is too large for a text, and as such it is not printed. -/
theorem render_ne {t : String} (h : formOf t = .plain) {x : Floating .double}
    (hdigit : t.toList.any Char.isDigit = true) (hx : Floating.read? .double t.toList = some x) :
    Floating.render Value.realLayout x ≠ t := by
  obtain ⟨hreads, -⟩ := Yaml.of_formOf_plain h
  rw [Yaml.readsOtherwise, Bool.or_eq_false_iff, decide_eq_false_iff_not, not_not] at hreads
  obtain ⟨htext, hzeros⟩ := hreads
  have hreal : Yaml.Core.real? t.toList = none := by
    rw [Yaml.Core.ofPlain] at htext
    split at htext
    · exact absurd htext nofun
    · split at htext
      · exact absurd htext nofun
      · exact absurd htext nofun
      · rw [hzeros, if_neg Bool.false_ne_true] at htext
        split at htext
        · exact absurd htext nofun
        · assumption
  have hfinite : x.isFinite = false :=
    Bool.eq_false_iff.mpr fun hfinite => real?_ne_none hx hfinite hreal
  rintro rfl
  rw [Floating.render] at hdigit
  split at hdigit
  · exact absurd hdigit (by decide)
  · rw [hfinite, Bool.not_false, if_pos rfl] at hdigit
    cases hsign : x.negative <;>
    · rw [hsign] at hdigit
      exact absurd hdigit (by decide)

theorem rereadText_eq_iff {t : String} :
    rereadText t = t ↔ (formOf t = .plain → Scalar.ofPlain t = .text t) := by
  have hread := ofNode?_textNode t
  by_cases hform : formOf t = .plain
  · rw [if_pos hform] at hread
    rcases Scalar.ofPlain_of_formOf hform with
      ⟨i, hint, hlow, hhigh⟩ | ⟨x, hreal, hdigit, hx⟩ | htext
    · rw [hint] at hread
      have hne : toString i ≠ t := by
        rintro rfl
        exact formOf_toString hlow hhigh hform
      rw [rereadText_of_read hread, hint]
      exact ⟨fun h => absurd h hne, fun h => absurd (h hform) nofun⟩
    · rw [hreal, Scalar.value?, hx, Option.map_some] at hread
      rw [rereadText_of_read hread, hreal]
      exact ⟨fun h => absurd h (render_ne hform hdigit hx), fun h => absurd (h hform) nofun⟩
    · rw [htext] at hread
      rw [rereadText_of_read hread]
      exact ⟨fun _ _ => htext, fun _ => rfl⟩
  · rw [if_neg hform] at hread
    rw [rereadText_of_read hread]
    exact ⟨fun _ h => absurd h hform, fun _ => rfl⟩

end Settings

end PlatformProxy
