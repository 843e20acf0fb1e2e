import Mathlib.Data.List.TakeWhile
import PlatformProxy.Proofs.Frame.Layout
import PlatformProxy.Proofs.Text.Numeral
import PlatformProxy.Proofs.Text.Utf8

/-!
# The line that counts

A header may have any lines, and one of them says how long the body is: the first that is the name,
a colon and digits, with nothing else on it but blanks and tabs around the digits. Lines are split
and searched for it; here it is said which line that is, so that a theorem on headers need not go
into the search.

A line that misses the form is no fault, however near it comes. A blank before the colon, a sign, a
unit behind the number or the same words inside another line make it a line of another form, and it
is passed over. A line that has the form counts even if its number is of no use. Its digits may be
of another script, or too many; then the header is refused, and a later line that would do is not
looked for.

## Main definitions

* `Frame.Announces` — the lines that announce a length, with their digits
* `Frame.HeaderLine`, `Frame.headerBlock` — the lines of a header, and their bytes
* `Frame.FirstAnnounces` — the first line that announces a length

## Main results

* `Frame.lengthDigits?_eq_some_iff` — the lines that are recognised
* `Frame.announcedLength_headerBlock` — the search goes over the lines as they are
* `Frame.first_length_line_counts` — what a header announces is what its first such line says

## Implementation notes

A line feed ends a line, and a carriage return only does before a line feed. One inside a line is a
character like any other, so lines of headers may have them.
-/

namespace PlatformProxy

namespace Frame

/-- The lines that announce a length: the name in any letter case, a colon and digits, with blanks
and tabs around the digits. -/
inductive Announces : (text digits : List Char) → Prop
  | line {name before digits after : List Char} (hname : name.map Char.toLower = lengthName)
      (hbefore : ∀ c ∈ before, isPad c = true) (hafter : ∀ c ∈ after, isPad c = true)
      (hdigits : ∀ c ∈ digits, Text.isDecimalDigit c = true) (hne : digits ≠ []) :
      Announces (name ++ ':' :: (before ++ (digits ++ after))) digits

/-! ### Recognising a line -/

theorem isPad_iff {c : Char} : isPad c = true ↔ c = ' ' ∨ c = '\t' := by
  simp [isPad]

theorem isPad_eq_false_of_isDecimalDigit {c : Char} (h : Text.isDecimalDigit c = true) :
    isPad c = false := by
  by_contra hpad
  rw [Bool.not_eq_false, isPad_iff] at hpad
  rcases hpad with rfl | rfl <;> exact absurd h (by decide)

theorem isDecimalDigit_eq_false_of_isPad {c : Char} (h : isPad c = true) :
    Text.isDecimalDigit c = false := by
  by_contra hdigit
  rw [Bool.not_eq_false] at hdigit
  rw [isPad_eq_false_of_isDecimalDigit hdigit] at h
  exact absurd h (by decide)

theorem dropWord?_eq_some_iff {word line rest : List Char} :
    dropWord? word line = some rest ↔
      ∃ name, line = name ++ rest ∧ name.map Char.toLower = word := by
  induction word generalizing line with
  | nil => simp [dropWord?, eq_comm]
  | cons w word ih =>
    cases line with
    | nil => simp [dropWord?]
    | cons c line =>
      rw [dropWord?]
      constructor
      · intro h
        split at h
        · rename_i hc
          obtain ⟨name, rfl, hname⟩ := ih.mp h
          exact ⟨c :: name, rfl, by rw [List.map_cons, hc, hname]⟩
        · simp at h
      · rintro ⟨name, hline, hname⟩
        cases name with
        | nil => simp at hname
        | cons c' name =>
          obtain ⟨rfl, rfl⟩ := List.cons.inj hline
          obtain ⟨hc, hname⟩ := List.cons.inj hname
          rw [if_pos hc, ih]
          exact ⟨name, rfl, hname⟩

theorem lengthDigits?_of_dropWord? {line value : List Char}
    (h : dropWord? lengthName line = some (':' :: value)) :
    lengthDigits? line =
      let value := value.dropWhile isPad
      let digits := value.takeWhile Text.isDecimalDigit
      let rest := (value.dropWhile Text.isDecimalDigit).dropWhile isPad
      if digits ≠ [] ∧ (rest = [] ∨ rest = ['\r']) then some digits else none := by
  rw [lengthDigits?, h]
  rfl

/-- Characters of one kind end where a character of another kind begins. -/
theorem span_append {p : Char → Bool} {front rest : List Char} (hfront : ∀ c ∈ front, p c = true)
    (hrest : ∀ c ∈ rest.head?, p c = false) :
    (front ++ rest).takeWhile p = front ∧ (front ++ rest).dropWhile p = rest := by
  rw [List.takeWhile_append_of_pos hfront, List.dropWhile_append_of_pos hfront]
  cases rest with
  | nil => simp
  | cons c rest => simp [hrest c rfl]

theorem lengthDigits?_of_announces {text digits : List Char} (h : Announces text digits) :
    lengthDigits? (text ++ ['\r']) = some digits := by
  obtain @⟨name, before, digits, after, hname, hbefore, hafter, hdigits, hne⟩ := h
  have hvalue : dropWord? lengthName (name ++ ':' :: (before ++ (digits ++ after)) ++ ['\r']) =
      some (':' :: (before ++ (digits ++ (after ++ ['\r'])))) :=
    dropWord?_eq_some_iff.mpr ⟨name, by simp, hname⟩
  have hfirst : ∀ c ∈ (digits ++ (after ++ ['\r'])).head?, isPad c = false := by
    obtain ⟨d, rest, rfl⟩ := List.exists_cons_of_ne_nil hne
    intro c hc
    obtain rfl : d = c := by simpa using hc
    exact isPad_eq_false_of_isDecimalDigit (hdigits d List.mem_cons_self)
  have hlast : ∀ c ∈ (after ++ ['\r']).head?, Text.isDecimalDigit c = false := by
    intro c hc
    cases after with
    | nil =>
      obtain rfl : '\r' = c := by simpa using hc
      decide
    | cons d rest =>
      obtain rfl : d = c := by simpa using hc
      exact isDecimalDigit_eq_false_of_isPad (hafter d List.mem_cons_self)
  have hreturn : ∀ c ∈ ['\r'].head?, isPad c = false := by
    intro c hc
    obtain rfl : '\r' = c := by simpa using hc
    decide
  rw [lengthDigits?_of_dropWord? hvalue]
  dsimp only
  rw [(span_append hbefore hfirst).2, (span_append hdigits hlast).1, (span_append hdigits hlast).2,
    (span_append hafter hreturn).2, if_pos ⟨hne, .inr rfl⟩]

/-- What is recognised announces a length, but for a carriage return at its end. -/
theorem exists_of_lengthDigits? {line digits : List Char} (h : lengthDigits? line = some digits) :
    ∃ text rest, Announces text digits ∧ line = text ++ rest ∧ (rest = [] ∨ rest = ['\r']) := by
  obtain ⟨value, hvalue⟩ : ∃ value, dropWord? lengthName line = some (':' :: value) := by
    rw [lengthDigits?] at h
    split at h
    · exact ⟨_, ‹_›⟩
    · simp at h
  obtain ⟨name, rfl, hname⟩ := dropWord?_eq_some_iff.mp hvalue
  rw [lengthDigits?_of_dropWord? hvalue] at h
  dsimp only at h
  split at h
  · rename_i hends
    obtain rfl := Option.some.inj h
    have hpads : ∀ s : List Char, ∀ c ∈ s.takeWhile isPad, isPad c = true :=
      fun _ _ => List.mem_takeWhile_imp
    have hbehind := hpads ((value.dropWhile isPad).dropWhile Text.isDecimalDigit)
    refine ⟨_, _, .line hname (hpads value) hbehind (fun _ => List.mem_takeWhile_imp) hends.1, ?_,
      hends.2⟩
    simp only [List.append_assoc, List.cons_append, List.takeWhile_append_dropWhile]
  · simp at h

namespace Announces

variable {text digits : List Char}

theorem ne_nil (h : Announces text digits) : digits ≠ [] := by
  cases h
  assumption

theorem notMem_return (h : Announces text digits) : '\r' ∉ text := by
  obtain @⟨name, before, digits, after, hname, hbefore, hafter, hdigits, hne⟩ := h
  intro hmem
  simp only [List.mem_append, List.mem_cons] at hmem
  rcases hmem with hmem | hmem | hmem | hmem | hmem
  · have hlower : Char.toLower '\r' ∈ lengthName := hname ▸ List.mem_map_of_mem hmem
    exact absurd hlower (by decide)
  · exact absurd hmem (by decide)
  · exact absurd (hbefore _ hmem) (by decide)
  · exact absurd (hdigits _ hmem) (by decide)
  · exact absurd (hafter _ hmem) (by decide)

end Announces

/-- **The lines that are recognised are those that announce a length.** -/
theorem lengthDigits?_eq_some_iff {text digits : List Char} :
    lengthDigits? (text ++ ['\r']) = some digits ↔ Announces text digits := by
  constructor
  · intro h
    -- The carriage return at the end is none of the line's own.
    obtain ⟨text', rest, hannounces, hline, rfl | rfl⟩ := exists_of_lengthDigits? h
    · have hreturn : '\r' ∈ text' := by
        rw [← List.append_nil text', ← hline]
        simp
      exact absurd hreturn hannounces.notMem_return
    · exact List.append_cancel_right hline ▸ hannounces
  · exact lengthDigits?_of_announces

/-! ### Lines of a header -/

/-- A line of a header, without its end. -/
structure HeaderLine where
  text : List Char
  unbroken : '\n' ∉ text
  deriving DecidableEq

namespace HeaderLine

variable {line : HeaderLine}

/-- A line of the form that matters. -/
def IsLength (line : HeaderLine) : Prop := ∃ digits, Announces line.text digits

/-- The digits that a line with its end is recognised by. -/
def digits? (line : HeaderLine) : Option (List Char) := lengthDigits? (line.text ++ ['\r'])

theorem digits?_eq_some_iff {digits : List Char} :
    line.digits? = some digits ↔ Announces line.text digits :=
  lengthDigits?_eq_some_iff

theorem isSome_digits?_iff : line.digits?.isSome = true ↔ line.IsLength := by
  simp only [Option.isSome_iff_exists, digits?_eq_some_iff, IsLength]

theorem digits?_eq_none_iff : line.digits? = none ↔ ¬ line.IsLength := by
  rw [← isSome_digits?_iff, Option.not_isSome_iff_eq_none]

instance (line : HeaderLine) : Decidable line.IsLength :=
  decidable_of_iff _ isSome_digits?_iff

end HeaderLine

/-- Lines, each with its end. -/
def linesText (lines : List HeaderLine) : List Char :=
  lines.flatMap fun line => line.text ++ ['\r', '\n']

def headerBlock (lines : List HeaderLine) : Bytes := Utf8.encode (linesText lines)

/-- The first line of the form that matters announces a length by the given digits. -/
def FirstAnnounces (lines : List HeaderLine) (digits : List Char) : Prop :=
  ∃ before line after, lines = before ++ line :: after ∧
    (∀ other ∈ before, ¬ other.IsLength) ∧ Announces line.text digits

theorem linesText_cons (line : HeaderLine) (lines : List HeaderLine) :
    linesText (line :: lines) = line.text ++ ['\r'] ++ '\n' :: linesText lines := by
  simp [linesText]

theorem splitOn_linesText (lines : List HeaderLine) :
    (linesText lines).splitOn '\n' =
      (lines.map fun line : HeaderLine => line.text ++ ['\r']) ++ [[]] := by
  induction lines with
  | nil => rfl
  | cons line lines ih =>
    have hline : '\n' ∉ line.text ++ ['\r'] := by
      simp [line.unbroken]
    rw [linesText_cons, List.splitOn_append_cons_self_of_not_mem hline, ih]
    rfl

/-- Behind the last line there is nothing that could count. -/
theorem announcedLength_headerBlock (lines : List HeaderLine) :
    announcedLength (headerBlock lines) =
      match lines.findSome? HeaderLine.digits? with
      | none => .error .noLength
      | some digits =>
        match Text.readBounded lengthBound digits with
        | .ok n => .ok n
        | .error e => .error (.badHeader (.badLength e)) := by
  have hsearch : ((linesText lines).splitOn '\n').findSome? lengthDigits? =
      lines.findSome? HeaderLine.digits? := by
    rw [splitOn_linesText, List.findSome?_append, List.findSome?_map]
    show (lines.findSome? HeaderLine.digits?).or none = _
    rw [Option.or_none]
  rw [announcedLength, headerBlock, Utf8.decode_encode, ← hsearch]
  rfl

section Block

variable {lines : List HeaderLine} {digits : List Char}

theorem findSome?_digits?_eq_some_iff :
    lines.findSome? HeaderLine.digits? = some digits ↔ FirstAnnounces lines digits := by
  rw [List.findSome?_eq_some_iff]
  simp only [HeaderLine.digits?_eq_some_iff, HeaderLine.digits?_eq_none_iff, FirstAnnounces]
  constructor
  · rintro ⟨before, line, after, rfl, hline, hbefore⟩
    exact ⟨before, line, after, rfl, hbefore, hline⟩
  · rintro ⟨before, line, after, rfl, hbefore, hline⟩
    exact ⟨before, line, after, rfl, hline, hbefore⟩

theorem findSome?_digits?_eq_none_iff :
    lines.findSome? HeaderLine.digits? = none ↔ ∀ line ∈ lines, ¬ line.IsLength := by
  simp only [List.findSome?_eq_none_iff, HeaderLine.digits?_eq_none_iff]

/-- Lines of other forms can be left out. -/
theorem findSome?_digits?_filter (lines : List HeaderLine) :
    (lines.filter (·.IsLength)).findSome? HeaderLine.digits? =
      lines.findSome? HeaderLine.digits? := by
  induction lines with
  | nil => rfl
  | cons line lines ih =>
    rw [List.filter_cons, List.findSome?_cons]
    by_cases hline : line.IsLength
    · rw [if_pos (decide_eq_true hline), List.findSome?_cons, ih]
    · rw [if_neg (by simpa using hline), ih, HeaderLine.digits?_eq_none_iff.mpr hline]

theorem announcedLength_of_firstAnnounces (h : FirstAnnounces lines digits) :
    announcedLength (headerBlock lines) =
      match Text.readBounded lengthBound digits with
      | .ok n => .ok n
      | .error e => .error (.badHeader (.badLength e)) := by
  rw [announcedLength_headerBlock, findSome?_digits?_eq_some_iff.mpr h]

theorem announcedLength_of_forall_not (h : ∀ line ∈ lines, ¬ line.IsLength) :
    announcedLength (headerBlock lines) = .error .noLength := by
  rw [announcedLength_headerBlock, findSome?_digits?_eq_none_iff.mpr h]

/-- A header has a line of the form that matters, or it has none. -/
theorem exists_firstAnnounces_or_forall (lines : List HeaderLine) :
    (∃ digits, FirstAnnounces lines digits) ∨ ∀ line ∈ lines, ¬ line.IsLength := by
  cases hfirst : lines.findSome? HeaderLine.digits? with
  | none => exact .inr (findSome?_digits?_eq_none_iff.mp hfirst)
  | some digits => exact .inl ⟨digits, findSome?_digits?_eq_some_iff.mp hfirst⟩

theorem FirstAnnounces.ne_nil (h : FirstAnnounces lines digits) : digits ≠ [] := by
  obtain ⟨_, _, _, _, _, hline⟩ := h
  exact hline.ne_nil

theorem announcedLength_eq_ok_iff {n : Nat} :
    announcedLength (headerBlock lines) = .ok n ↔
      ∃ digits, FirstAnnounces lines digits ∧ Text.IsNumeral digits n ∧ n < lengthBound := by
  constructor
  · intro h
    rcases exists_firstAnnounces_or_forall lines with ⟨digits, hfirst⟩ | hnone
    · rw [announcedLength_of_firstAnnounces hfirst] at h
      split at h
      · rename_i hread
        obtain rfl := Except.ok.inj h
        exact ⟨digits, hfirst, (Text.readBounded_eq_ok_iff_isNumeral (by decide)).mp hread⟩
      · simp at h
    · rw [announcedLength_of_forall_not hnone] at h
      simp at h
  · rintro ⟨digits, hfirst, hnumeral⟩
    rw [announcedLength_of_firstAnnounces hfirst,
      (Text.readBounded_eq_ok_iff_isNumeral (by decide)).mpr hnumeral]

theorem announcedLength_eq_badLength_iff :
    (∃ e, announcedLength (headerBlock lines) = .error (.badHeader (.badLength e))) ↔
      ∃ digits, FirstAnnounces lines digits ∧
        ((∃ c ∈ digits, c.isDigit = false) ∨ ∃ n, Text.IsNumeral digits n ∧ lengthBound ≤ n) := by
  constructor
  · rintro ⟨e, h⟩
    rcases exists_firstAnnounces_or_forall lines with ⟨digits, hfirst⟩ | hnone
    · refine ⟨digits, hfirst, ?_⟩
      rw [announcedLength_of_firstAnnounces hfirst] at h
      rw [← Text.exists_readBounded_eq_error_iff (by decide) hfirst.ne_nil]
      split at h
      · simp at h
      · exact ⟨_, ‹_›⟩
    · rw [announcedLength_of_forall_not hnone] at h
      simp at h
  · rintro ⟨digits, hfirst, hbad⟩
    obtain ⟨e, hread⟩ :=
      (Text.exists_readBounded_eq_error_iff (by decide) hfirst.ne_nil).mpr hbad
    rw [announcedLength_of_firstAnnounces hfirst, hread]
    exact ⟨e, rfl⟩

theorem announcedLength_eq_noLength_iff :
    announcedLength (headerBlock lines) = .error .noLength ↔ ∀ line ∈ lines, ¬ line.IsLength := by
  constructor
  · intro h
    rcases exists_firstAnnounces_or_forall lines with ⟨digits, hfirst⟩ | hnone
    · rw [announcedLength_of_firstAnnounces hfirst] at h
      split at h <;> simp at h
    · exact hnone
  · exact announcedLength_of_forall_not

/-- Only the lines of the form that matters can tell headers apart. -/
theorem announcedLength_congr {lines' : List HeaderLine}
    (h : lines'.filter (·.IsLength) = lines.filter (·.IsLength)) :
    announcedLength (headerBlock lines') = announcedLength (headerBlock lines) := by
  rw [announcedLength_headerBlock, announcedLength_headerBlock, ← findSome?_digits?_filter lines',
    ← findSome?_digits?_filter lines, h]

end Block

theorem textLength_ne_notText (text : List Char) (fault : Utf8.Fault) :
    textLength text ≠ .error (.badHeader (.notText fault)) := by
  rw [textLength]
  split
  · simp
  · split <;> simp

/-- What is no text is refused as such, wherever it stands in a header. -/
theorem announcedLength_eq_notText_iff {bytes : Bytes} :
    (∃ fault, announcedLength bytes = .error (.badHeader (.notText fault))) ↔
      ∀ text, bytes ≠ Utf8.encode text := by
  simp only [ne_eq, ← Utf8.decode_eq_ok_iff]
  rw [announcedLength]
  cases Utf8.decode bytes with
  | error fault => simp
  | ok text => simp [textLength_ne_notText]

/-! ### What headers announce -/

/-- **The first line that announces a length counts.** A header of any lines announces the number
of the first line of the form that matters, if that is written in ASCII digits, with any number of
zeros before it, and less than `2 ^ 64`. With a digit of another script or a larger number in that
line the header is refused, and without such a line it is refused for want of one. Lines of other
forms count for nothing: they can be put in, taken out and moved. Bytes that are no text are refused
whatever lines they have. -/
theorem first_length_line_counts (lines : List HeaderLine) :
    (∀ n, announcedLength (headerBlock lines) = .ok n ↔
      ∃ digits, FirstAnnounces lines digits ∧ Text.IsNumeral digits n ∧ n < 2 ^ 64) ∧
    ((∃ e, announcedLength (headerBlock lines) = .error (.badHeader (.badLength e))) ↔
      ∃ digits, FirstAnnounces lines digits ∧
        ((∃ c ∈ digits, c.isDigit = false) ∨ ∃ n, Text.IsNumeral digits n ∧ 2 ^ 64 ≤ n)) ∧
    (announcedLength (headerBlock lines) = .error .noLength ↔
      ∀ line ∈ lines, ¬ line.IsLength) ∧
    (∀ lines' : List HeaderLine, lines'.filter (·.IsLength) = lines.filter (·.IsLength) →
      announcedLength (headerBlock lines') = announcedLength (headerBlock lines)) ∧
    ∀ bytes : Bytes, (∃ fault, announcedLength bytes = .error (.badHeader (.notText fault))) ↔
      ∀ text, bytes ≠ Utf8.encode text := by
  refine ⟨fun n => announcedLength_eq_ok_iff, announcedLength_eq_badLength_iff,
    announcedLength_eq_noLength_iff, ?_, fun bytes => announcedLength_eq_notText_iff⟩
  intro lines' h
  exact announcedLength_congr h

/-- Lines that come near the form, before and behind one that has it and one that would not do. -/
theorem near_misses_are_passed_over :
    let type : HeaderLine := ⟨"Content-Type: Content-Length: 5".toList, by decide⟩
    let blank : HeaderLine := ⟨"Content-Length : 5".toList, by decide⟩
    let sign : HeaderLine := ⟨"Content-Length: +5".toList, by decide⟩
    let unit : HeaderLine := ⟨"Content-Length: 5 bytes".toList, by decide⟩
    let padded : HeaderLine := ⟨"CONTENT-length:\t 0042 ".toList, by decide⟩
    let foreign : HeaderLine := ⟨"Content-Length: ٣".toList, by decide⟩
    let lines := [type, blank, padded, sign, foreign, unit]
    let lines' := [unit, padded, foreign, type]
    lines'.filter (·.IsLength) = lines.filter (·.IsLength) ∧
      announcedLength (headerBlock lines') = announcedLength (headerBlock lines) ∧
      announcedLength (headerBlock lines) = .ok 42 := by
  intro type blank sign unit padded foreign lines lines'
  have hsame : lines'.filter (·.IsLength) = lines.filter (·.IsLength) := by decide +kernel
  exact ⟨hsame, (first_length_line_counts lines).2.2.2.1 lines' hsame, by decide +kernel⟩

end Frame

end PlatformProxy
