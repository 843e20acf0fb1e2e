import PlatformProxy.Proofs.Frame.Chunks
import PlatformProxy.Proofs.Frame.Lines

/-!
# What is written is read

Messages are written with a decimal number in their header and read by a search for the end of the
header and for a line with a number in it. The two have nothing in common but the format. A header
that is written is a header that is read, with the length it was written for. A body is not looked
at, so it may hold anything, such as the end of a header; and a message that is read leaves a stream
where the next one begins.

## Main definitions

* `Frame.headerLines`, `Frame.message` — a header without its blank line, and a whole message

## Main results

* `Frame.announcedLength_headerLines`, `Frame.isHeader_headerLines` — a header that is written is
  read
* `Frame.written_messages_are_received` — and so are messages, in any chunks and with blank lines
  anywhere between them
-/

namespace PlatformProxy

namespace Frame

/-- What a header that is written begins with. -/
def headerName : List Char := "Content-Length: ".toList

/-- The one line of such a header. -/
def headerText (length : Nat) : List Char := headerName ++ Text.decimal length

def headerLines (length : Nat) : Bytes := Utf8.encode (headerText length) ++ lineEnd

def message (body : Bytes) : Bytes := header body.length ++ body

theorem header_eq (length : Nat) : header length = headerLines length ++ lineEnd := by
  rw [headerLines, headerText, Utf8.encode_append, List.append_assoc _ lineEnd, ← terminator_eq]
  rfl

/-! ### Reading a header -/

theorem headerName_eq : headerName = "Content-Length".toList ++ [':', ' '] := by decide

theorem announces_headerText (length : Nat) :
    Announces (headerText length) (Text.decimal length) := by
  have hdigits : ∀ c ∈ Text.decimal length, Text.isDecimalDigit c = true := by
    intro c hc
    exact Text.isDecimalDigit_of_isDigit (Text.isDigit_of_mem_decimal hc)
  have hline := @Announces.line "Content-Length".toList [' '] (Text.decimal length) []
    (by decide) (by simp [isPad]) (by simp) hdigits (Text.decimal_ne_nil length)
  rw [List.append_nil] at hline
  rw [headerText, headerName_eq, List.append_assoc]
  exact hline

theorem notMem_headerText {c : Char} (h : c.isDigit = false) (hc : c ∉ headerName)
    (length : Nat) : c ∉ headerText length := by
  rw [headerText, List.mem_append, not_or]
  refine ⟨hc, fun hmem => ?_⟩
  rw [Text.isDigit_of_mem_decimal hmem] at h
  exact absurd h (by decide)

/-- A header of one line announces the number of the line. -/
theorem announcedLength_of_line {text digits : List Char} {length : Nat} (hline : '\n' ∉ text)
    (hannounces : Announces text digits)
    (hlength : Text.readBounded lengthBound digits = .ok length) :
    announcedLength (Utf8.encode text ++ lineEnd) = .ok length := by
  have hblock : Utf8.encode text ++ lineEnd = headerBlock [⟨text, hline⟩] := by
    rw [headerBlock, linesText, List.flatMap_singleton, Utf8.encode_append]
    rfl
  have hfirst : FirstAnnounces [⟨text, hline⟩] digits :=
    ⟨[], ⟨text, hline⟩, [], rfl, List.forall_mem_nil _, hannounces⟩
  rw [hblock, announcedLength_of_firstAnnounces hfirst, hlength]

/-- **A header that is written announces the length it is written for.** -/
theorem announcedLength_headerLines {length : Nat} (h : length < lengthBound) :
    announcedLength (headerLines length) = .ok length :=
  announcedLength_of_line (notMem_headerText (by decide) (by decide) length)
    (announces_headerText length) (Text.readBounded_decimal h)

/-! ### The end of a header -/

/-- One line that is not blank is a header. -/
theorem isHeader_of_line {text : List Char} (hline : '\n' ∉ text)
    (hblank : ¬ lineEnd <+: Utf8.encode text ++ lineEnd) :
    IsHeader (Utf8.encode text ++ lineEnd) where
  ended := List.suffix_append _ _
  first := by
    intro hinfix
    have hnone : lineFeed ∉ Utf8.encode text := fun hmem =>
      hline (Utf8.mem_of_mem_encode hmem (by decide))
    -- There is one line feed, and a terminator has two.
    have hcount := hinfix.sublist.count_le lineFeed
    rw [List.count_append, List.count_append, List.count_eq_zero.mpr hnone] at hcount
    exact absurd hcount (by decide)
  notBlank := hblank

/-- The header of a message has one line and is no blank line. -/
theorem isHeader_headerLines (length : Nat) : IsHeader (headerLines length) := by
  refine isHeader_of_line (notMem_headerText (by decide) (by decide) length) ?_
  intro hprefix
  have hname : ∃ rest, Utf8.encode headerName = 0x43 :: rest :=
    ⟨(Utf8.encode headerName).tail, by decide⟩
  obtain ⟨rest, hrest⟩ := hname
  rw [headerText, Utf8.encode_append, hrest, lineEnd, List.append_assoc, List.cons_append,
    List.cons_prefix_cons] at hprefix
  exact absurd hprefix.1 (by decide)

theorem length_headerLines_le {length : Nat} (h : length < lengthBound) :
    (headerLines length ++ lineEnd).length ≤ headerLimit := by
  have hname : headerName.length = 16 := by decide
  have hdecimal : (Text.decimal length).length ≤ 20 := by
    rw [Text.decimal_eq, Nat.length_toDigits_le_iff (by decide) (by decide)]
    exact Nat.lt_trans h (by decide)
  have hbytes := Utf8.length_encode_le (headerText length)
  rw [headerText, List.length_append] at hbytes
  rw [headerLines, headerText]
  simp [lineEnd, headerLimit] at hbytes ⊢
  omega

/-! ### Messages in a row -/

/-- **What is written is a message, and nothing is written of a body that is too long.** -/
theorem append_eq (limit : Nat) (buffer body : Bytes) :
    append limit buffer body =
      if body.length ≤ limit then (.ok (), buffer ++ message body)
      else (.error (.longBody body.length limit), buffer) := by
  rw [append, encode]
  by_cases h : limit < body.length
  · rw [if_pos h, if_neg (Nat.not_le.mpr h)]
  · rw [if_neg h, if_pos (Nat.not_lt.mp h)]
    rfl

/-- Messages with blank lines before each of them and behind the last. -/
def written (items : List (Nat × Bytes)) (last : Nat) : Bytes :=
  (items.flatMap fun item => blankLines item.1 ++ message item.2) ++ blankLines last

theorem written_cons (n : Nat) (body : Bytes) (items : List (Nat × Bytes)) (last : Nat) :
    written ((n, body) :: items) last =
      blankLines n ++ (headerLines body.length ++ lineEnd ++ (body ++ written items last)) := by
  simp only [written, List.flatMap_cons, message, header_eq, List.append_assoc]

section Written

variable {limit : Nat} {items : List (Nat × Bytes)}

theorem messages_written (hbound : limit < lengthBound) (h : ∀ item ∈ items, item.2.length ≤ limit)
    (last : Nat) :
    Messages limit (written items last) (items.map Prod.snd) (blankLines last) := by
  induction items with
  | nil => exact .nil _
  | cons item items ih =>
    obtain ⟨hitem, hitems⟩ := List.forall_mem_cons.mp h
    rw [written_cons]
    exact .cons item.1 (isHeader_headerLines _)
      (announcedLength_headerLines (Nat.lt_of_le_of_lt hitem hbound)) hitem (ih hitems)

theorem shortHeaders_written (hbound : limit < lengthBound)
    (h : ∀ item ∈ items, item.2.length ≤ limit) (last : Nat) :
    ShortHeaders limit (written items last) := by
  induction items with
  | nil => exact shortHeaders_blankLines limit last
  | cons item items ih =>
    obtain ⟨hitem, hitems⟩ := List.forall_mem_cons.mp h
    have hlength := Nat.lt_of_le_of_lt hitem hbound
    rw [written_cons]
    exact .cons item.1 (isHeader_headerLines _) (announcedLength_headerLines hlength)
      (length_headerLines_le hlength) (ih hitems)

theorem receive_written (hbound : limit < lengthBound) (h : ∀ item ∈ items, item.2.length ≤ limit)
    {last : Nat} {chunks : List Bytes} (hchunks : chunks.flatten = written items last) :
    (Receiver.new limit).receive chunks = (items.map Prod.snd, .ok (Receiver.new limit)) := by
  have hshort : ShortHeaders limit chunks.flatten := hchunks ▸ shortHeaders_written hbound h last
  rw [Receiver.receive_eq_drain hshort, hchunks]
  exact Receiver.drain_eq_iff.mpr
    ⟨_, messages_written hbound h last, .inr ⟨_, .of_blankLines limit last, rfl⟩⟩

end Written

/-- **Messages that are written are received.** A body is written if it is not longer than the
limit, and otherwise nothing is. Messages that are written, whatever their bodies are, with any
number of blank lines before, between and after them and cut into any chunks, are received by a
receiver with the same limit: just these bodies in this order, with nothing left over. -/
theorem written_messages_are_received (limit : UInt64) :
    (∀ buffer body : Bytes,
      append limit.toNat buffer body =
        if body.length ≤ limit.toNat then (.ok (), buffer ++ message body)
        else (.error (.longBody body.length limit.toNat), buffer)) ∧
    ∀ (items : List (Nat × Bytes)) (last : Nat) (chunks : List Bytes),
      (∀ item ∈ items, item.2.length ≤ limit.toNat) →
      chunks.flatten = written items last →
      (Receiver.new limit.toNat).receive chunks =
        (items.map Prod.snd, .ok (Receiver.new limit.toNat)) :=
  ⟨append_eq limit.toNat, fun _ _ _ hitems hchunks =>
    receive_written limit.toNat_lt hitems hchunks⟩

/-- A body that looks like a message, an empty one and a plain one, one byte at a time. -/
theorem bodies_like_messages :
    let bodies := [Utf8.ofString "\r\n\r\nContent-Length: 1\r\n\r\nx", [], Utf8.ofString "ab"]
    let items := [(1, bodies[0]), (0, bodies[1]), (2, bodies[2])]
    let chunks := (written items 1).map fun b => [b]
    (∀ item ∈ items, item.2.length ≤ (26 : UInt64).toNat) ∧
      chunks.flatten = written items 1 ∧
      (Receiver.new 26).receive chunks = (bodies, .ok (Receiver.new 26)) :=
  have hitems := by decide +kernel
  have hchunks := by decide +kernel
  ⟨hitems, hchunks, (written_messages_are_received 26).2 _ 1 _ hitems hchunks⟩

end Frame

end PlatformProxy
