import PlatformProxy.Proofs.Frame.RoundTrip

/-!
# Long headers

The limit on headers is for headers whose end does not come. It is looked at when the receiver has
been fed and finds no end, and at no other time, so it is a limit on what is there at a cut and not
on headers. A header that is longer is refused if the stream is cut within it, behind more bytes
than the limit. It counts like any other if the stream is cut elsewhere, and then its message is
taken.

Both is said of all ways to cut a stream. What a cut leaves of a stream is whole messages and a
header without its end, so the receiver comes to that header with the fault, or it has found the
same fault in a header before.

## Main results

* `Frame.Receiver.receive_of_cutLate` — a header that is cut late is refused, or one before it
* `Frame.Receiver.long_headers_are_refused_where_cut` — and a message is taken unless a header up to
  its own is cut late
* `Frame.Receiver.long_header_at_once_is_taken` — so the same bytes are refused and taken

## Implementation notes

A header with one byte more than the limit is never cut late. At the last place where it can be cut
there is just as much of it as the limit allows.
-/

namespace PlatformProxy

namespace Frame

/-! ### Messages and what is left -/

namespace Messages

variable {limit : Nat} {bytes rest more : Bytes} {bodies : List Bytes}

/-- What is not needed may be missing. -/
theorem of_append (h : Messages limit (bytes ++ more) bodies (rest ++ more)) :
    Messages limit bytes bodies rest := by
  generalize hall : bytes ++ more = all at h
  generalize hleft : rest ++ more = left at h
  induction h generalizing bytes with
  | nil _ =>
    rw [← hleft] at hall
    exact List.append_cancel_right hall ▸ .nil _
  | @cons n lines body tail left bodies hlines hlength hlimit htail ih =>
    subst hleft
    obtain ⟨fewer, rfl⟩ : more <:+ tail := (List.suffix_append rest more).trans htail.suffix
    have hbytes : bytes = blankLines n ++ (lines ++ lineEnd ++ (body ++ fewer)) := by
      refine List.append_cancel_right (hall.trans ?_)
      simp only [List.append_assoc]
    rw [hbytes]
    exact .cons n hlines hlength hlimit (ih rfl rfl)

/-- The message that stands behind some messages. -/
theorem snoc {n : Nat} {lines body : Bytes}
    (h : Messages limit bytes bodies (blankLines n ++ (lines ++ lineEnd ++ (body ++ rest))))
    (hlines : IsHeader lines) (hlength : announcedLength lines = .ok body.length)
    (hlimit : body.length ≤ limit) : Messages limit bytes (bodies ++ [body]) rest := by
  have htakes := (Receiver.takes_iff_messages.mpr ⟨_, h, rfl⟩).snoc
    (Receiver.decode_of_front (.message n body rest hlines hlength hlimit))
  obtain ⟨rest', hmessages, hrest⟩ := Receiver.takes_iff_messages.mp htakes
  obtain rfl : rest = rest' := congrArg Receiver.buffer hrest
  exact hmessages

end Messages

namespace Receiver

variable {limit : Nat}

/-- Whole messages at the front of a stream are taken. -/
theorem prefix_drain {bytes rest : Bytes} {bodies : List Bytes}
    (h : Messages limit bytes bodies rest) : bodies <+: (drain ⟨limit, none, bytes⟩).1 := by
  rw [drain_of_takes (takes_iff_messages.mpr ⟨rest, h, rfl⟩)]
  exact List.prefix_append _ _

theorem receive_singleton (r : Receiver) (chunk : Bytes) :
    r.receive [chunk] = (r.feed chunk).drain := by
  rw [receive]
  obtain ⟨bodies, e | r'⟩ := (r.feed chunk).drain
  · rfl
  · simp [receive]

/-- After a fault nothing is received. -/
theorem receive_append_of_error {r : Receiver} {chunks : List Bytes} {bodies : List Bytes}
    {e : Error} (h : r.receive chunks = (bodies, .error e)) (more : List Bytes) :
    r.receive (chunks ++ more) = (bodies, .error e) := by
  induction more using List.reverseRecOn with
  | nil => rwa [List.append_nil]
  | append_singleton more chunk ih => rw [← List.append_assoc, receive_concat, ih]

/-! ### Headers that are cut late -/

/-- Where a header is overdue it is refused. -/
theorem drain_of_overdue {bytes toCome lines rest : Bytes} {bodies : List Bytes}
    (h : HeaderAt limit (bytes ++ toCome) bodies lines rest)
    (hoverdue : Overdue lines rest toCome) :
    drain ⟨limit, none, bytes⟩ = (bodies, .error (.longHeader headerLimit)) := by
  obtain ⟨hlines, n, hmessages⟩ := h
  obtain ⟨part, missing, hheader, rfl, hlong, hopen⟩ := hoverdue
  have hbefore : Messages limit bytes bodies (blankLines n ++ part) := by
    have hsplit : blankLines n ++ (lines ++ lineEnd ++ rest) =
        blankLines n ++ part ++ (missing ++ rest) := by
      simp only [hheader, List.append_assoc]
    rw [hsplit] at hmessages
    exact hmessages.of_append
  have hpart : part <+: lines ++ lineEnd := ⟨missing, hheader.symm⟩
  have hblank : ¬ lineEnd <+: part := by
    intro hstart
    have hnot := hlines.not_prefix_append []
    rw [List.append_nil] at hnot
    exact hnot (hstart.trans hpart)
  -- All of the header but its last byte holds no end of a header.
  have hinit : part <+: lines ++ [carriageReturn] := by
    refine List.prefix_of_prefix_length_le hpart ⟨[lineFeed], List.append_assoc _ _ _⟩ ?_
    have hlength := congrArg List.length hheader
    have hpos := List.length_pos_of_ne_nil hopen
    simp [lineEnd] at hlength ⊢
    omega
  have hnone : ¬ terminator <:+: part := fun hend => hlines.first (hend.trans hinit.isInfix)
  exact drain_eq_iff.mpr ⟨_, hbefore, .inl ⟨_, _, .longHeader n hblank hnone hlong, rfl⟩⟩

/-- **A header that is cut late is refused**, or one before it is. -/
theorem receive_of_cutLate {chunks : List Bytes} {bodies : List Bytes} {lines rest : Bytes}
    (h : HeaderAt limit chunks.flatten bodies lines rest) (hcut : CutLate chunks lines rest) :
    ∃ taken, taken <+: bodies ∧
      (new limit).receive chunks = (taken, .error (.longHeader headerLimit)) := by
  obtain ⟨first, last, rfl, hoverdue⟩ := hcut
  rw [List.flatten_append] at h
  have hdrain := drain_of_overdue h hoverdue
  obtain hsame | ⟨taken, _, _, ⟨-, _, hmessages⟩, -, hrefused⟩ := receive_cases limit first
  · exact ⟨bodies, List.prefix_refl bodies, receive_append_of_error (hsame.trans hdrain) last⟩
  · have htaken := prefix_drain hmessages
    rw [hdrain] at htaken
    exact ⟨taken, htaken, receive_append_of_error hrefused last⟩

/-- **A message is taken unless a header is cut late**, its own or one before it. -/
theorem prefix_receive_iff {chunks : List Bytes} {bodies : List Bytes} {lines body rest : Bytes}
    (h : HeaderAt limit chunks.flatten bodies lines (body ++ rest))
    (hlength : announcedLength lines = .ok body.length) (hlimit : body.length ≤ limit) :
    bodies ++ [body] <+: ((new limit).receive chunks).1 ↔
      ∀ ⦃before lines' rest'⦄, HeaderAt limit chunks.flatten before lines' rest' →
        before <+: bodies → ¬ CutLate chunks lines' rest' := by
  constructor
  · intro htaken before lines' rest' hbefore hle hcut
    obtain ⟨taken, htakenLe, hrefused⟩ := receive_of_cutLate hbefore hcut
    rw [hrefused] at htaken
    have hlonger := (htaken.trans (htakenLe.trans hle)).length_le
    rw [List.length_append, List.length_singleton] at hlonger
    omega
  · intro hnone
    obtain ⟨hlines, n, hmessages⟩ := h
    have hall := prefix_drain (hmessages.snoc hlines hlength hlimit)
    obtain hsame | ⟨taken, lines', rest', hheader, hcut, hrefused⟩ := receive_cases limit chunks
    · rwa [hsame]
    · -- The header that is refused stands behind the message.
      obtain ⟨_, hbefore⟩ := hheader.behind
      rw [hrefused]
      obtain hle | hlt := List.prefix_or_prefix_of_prefix hall (prefix_drain hbefore)
      · exact hle
      · obtain rfl | hle := List.prefix_concat_iff.mp hlt
        · exact List.prefix_refl _
        · exact absurd hcut (hnone hheader hle)

/-- A stream that comes at once is not cut. -/
theorem not_cutLate_singleton {stream lines rest : Bytes} {bodies : List Bytes}
    (h : HeaderAt limit stream bodies lines rest) : ¬ CutLate [stream] lines rest := by
  rintro ⟨first, last, hchunks, part, missing, hheader, hlast, hlong, hopen⟩
  obtain ⟨_, hmessages⟩ := h.behind
  have hle := hmessages.suffix.length_le
  have hheader := congrArg List.length hheader
  have hlast := congrArg List.length hlast
  have hpos := List.length_pos_of_ne_nil hopen
  cases first with
  | nil =>
    obtain rfl : [stream] = last := hchunks
    simp only [List.length_append, List.flatten_singleton] at hle hheader hlast
    omega
  | cons chunk first =>
    obtain ⟨-, rfl⟩ := List.append_eq_nil_iff.mp (List.cons.inj hchunks).2.symm
    simp only [List.length_append, List.flatten_nil, List.length_nil] at hlast
    omega

end Receiver

/-! ### Padded headers -/

/-- A header line up to the blanks before its number. -/
def paddedName : List Char := "Content-Length:".toList

/-- A line with blanks before its number. -/
def paddedText (blanks : Nat) : List Char :=
  paddedName ++ (List.replicate blanks ' ' ++ ['2', '1'])

def paddedLines (blanks : Nat) : Bytes := Utf8.encode (paddedText blanks) ++ lineEnd

/-- Such a line up to its number. -/
def paddedStart (blanks : Nat) : Bytes := Utf8.encode paddedName ++ List.replicate blanks 0x20

/-- And from there on. -/
def paddedEnd : Bytes := Utf8.encode ['2', '1'] ++ lineEnd

theorem encode_blanks (blanks : Nat) :
    Utf8.encode (List.replicate blanks ' ') = List.replicate blanks 0x20 := by
  rw [Utf8.encode, List.flatMap_replicate, show String.utf8EncodeChar ' ' = [0x20] from rfl,
    List.flatten_replicate_singleton]

theorem paddedLines_eq (blanks : Nat) : paddedLines blanks = paddedStart blanks ++ paddedEnd := by
  rw [paddedLines, paddedText, Utf8.encode_append, Utf8.encode_append, encode_blanks, paddedStart,
    paddedEnd]
  simp only [List.append_assoc]

theorem isPrefix_paddedStart (blanks : Nat) : paddedStart blanks <+: paddedLines blanks :=
  ⟨paddedEnd, (paddedLines_eq blanks).symm⟩

theorem headerLimit_lt_paddedStart {blanks : Nat} (h : headerLimit ≤ blanks) :
    headerLimit < (paddedStart blanks).length := by
  have hname : (Utf8.encode paddedName).length = 15 := by decide
  rw [paddedStart, List.length_append, List.length_replicate, hname]
  omega

theorem notMem_paddedText (blanks : Nat) : '\n' ∉ paddedText blanks := by
  have hname : '\n' ∉ paddedName := by decide
  simp [paddedText, hname]

theorem paddedName_eq : paddedName = "Content-Length".toList ++ [':'] := by decide

theorem announces_paddedText (blanks : Nat) : Announces (paddedText blanks) ['2', '1'] := by
  have hblanks : ∀ c ∈ List.replicate blanks ' ', isPad c = true := by
    intro c hc
    rw [List.eq_of_mem_replicate hc]
    rfl
  have hdigits : ∀ c ∈ ['2', '1'], Text.isDecimalDigit c = true := by
    simp only [List.forall_mem_cons]
    exact ⟨by decide, by decide, nofun⟩
  rw [paddedText, paddedName_eq, List.append_assoc]
  exact @Announces.line "Content-Length".toList (List.replicate blanks ' ') ['2', '1'] []
    (by decide) hblanks (by simp) hdigits (by simp)

theorem not_lineEnd_prefix_padded (rest : Bytes) :
    ¬ lineEnd <+: Utf8.encode paddedName ++ rest := by
  obtain ⟨more, hmore⟩ : ∃ more, Utf8.encode paddedName = 0x43 :: more :=
    ⟨(Utf8.encode paddedName).tail, by decide⟩
  rw [hmore, lineEnd, List.cons_append, List.cons_prefix_cons]
  exact fun hprefix => absurd hprefix.1 (by decide)

theorem isHeader_paddedLines (blanks : Nat) : IsHeader (paddedLines blanks) := by
  refine isHeader_of_line (notMem_paddedText blanks) ?_
  rw [paddedText, Utf8.encode_append, List.append_assoc]
  exact not_lineEnd_prefix_padded _

theorem announcedLength_paddedLines (blanks : Nat) :
    announcedLength (paddedLines blanks) = .ok 21 :=
  announcedLength_of_line (notMem_paddedText blanks) (announces_paddedText blanks)
    (by decide)

/-- A message with a padded header. -/
theorem messages_padded {limit : Nat} (blanks : Nat) {body : Bytes} (hbody : body.length = 21)
    (hlimit : 21 ≤ limit) : Messages limit (paddedLines blanks ++ lineEnd ++ body) [body] [] := by
  have hmessage := Messages.cons 0 (isHeader_paddedLines blanks)
    (hbody ▸ announcedLength_paddedLines blanks) (hbody ▸ hlimit) (.nil [])
  rwa [blankLines_zero, List.append_nil] at hmessage

theorem headerAt_padded (limit blanks : Nat) (rest : Bytes) :
    HeaderAt limit (paddedLines blanks ++ lineEnd ++ rest) [] (paddedLines blanks) rest :=
  ⟨isHeader_paddedLines blanks, 0, .nil _⟩

theorem cutLate_padded {blanks : Nat} (h : headerLimit ≤ blanks) (rest : Bytes) :
    CutLate [paddedStart blanks, paddedEnd ++ lineEnd ++ rest] (paddedLines blanks) rest :=
  ⟨[paddedStart blanks], [paddedEnd ++ lineEnd ++ rest], rfl, paddedStart blanks,
    paddedEnd ++ lineEnd, by rw [paddedLines_eq, List.append_assoc], List.flatten_singleton,
    headerLimit_lt_paddedStart h, by simp [lineEnd]⟩

/-- The number of a line is waited for as long as the line is not long. -/
theorem decode_paddedStart (limit : Nat) {blanks : Nat} (h : headerLimit ≤ blanks) :
    ∃ r, ((Receiver.new limit).feed (paddedStart blanks)).decode =
      (.error (.longHeader headerLimit), r) := by
  have hopen : ¬ terminator <:+: paddedStart blanks := by
    intro hinfix
    have hmem : lineFeed ∈ paddedStart blanks := hinfix.subset (by decide)
    have hname : lineFeed ∉ Utf8.encode paddedName := by decide
    rw [paddedStart, List.mem_append, or_iff_right hname] at hmem
    exact absurd (List.eq_of_mem_replicate hmem) (by decide)
  exact ⟨_, Receiver.decode_of_front
    (.longHeader 0 (not_lineEnd_prefix_padded _) hopen (headerLimit_lt_paddedStart h))⟩

namespace Receiver

/-! ### Long headers and cuts -/

/-- **Long headers are refused where the stream is cut.** If a stream is cut within a header, behind
more of it than the limit, then that header is refused, or one before it, and nothing is taken from
there on. If it is not, the length of a header does not count: a whole message is taken if and only
if no header up to its own is cut so, and if none is in all the stream, then the stream is received
as if it came at once. -/
theorem long_headers_are_refused_where_cut (limit : Nat) (chunks : List Bytes) :
    (∀ ⦃bodies lines rest⦄, HeaderAt limit chunks.flatten bodies lines rest →
      CutLate chunks lines rest →
      ∃ taken, taken <+: bodies ∧
        (new limit).receive chunks = (taken, .error (.longHeader headerLimit))) ∧
    (∀ ⦃bodies lines body rest⦄, HeaderAt limit chunks.flatten bodies lines (body ++ rest) →
      announcedLength lines = .ok body.length → body.length ≤ limit →
      (bodies ++ [body] <+: ((new limit).receive chunks).1 ↔
        ∀ ⦃before lines' rest'⦄, HeaderAt limit chunks.flatten before lines' rest' →
          before <+: bodies → ¬ CutLate chunks lines' rest')) ∧
    ((∀ ⦃bodies lines rest⦄, HeaderAt limit chunks.flatten bodies lines rest →
      ¬ CutLate chunks lines rest) →
      (new limit).receive chunks = (new limit).receive [chunks.flatten]) := by
  refine ⟨fun _ _ _ h hcut => receive_of_cutLate h hcut,
    fun _ _ _ _ h hlength hlimit => prefix_receive_iff h hlength hlimit, fun hnone => ?_⟩
  obtain hsame | ⟨bodies, lines, rest, hheader, hcut, -⟩ := receive_cases limit chunks
  · rw [hsame, receive_singleton]
    rfl
  · exact absurd hcut (hnone hheader)

/-- A header with thousands of blanks, cut behind them and not cut. -/
theorem padded_header_cut_and_whole :
    let body := Utf8.ofString "\x7b\"id\":1,\"method\":\"M\"\x7d"
    let header := paddedLines 8192
    let cut := [paddedStart 8192, paddedEnd ++ lineEnd ++ body]
    let whole := [header ++ lineEnd ++ body]
    (HeaderAt 100 cut.flatten [] header body ∧ CutLate cut header body ∧
      (new 100).receive cut = ([], .error (.longHeader headerLimit))) ∧
    (HeaderAt 100 whole.flatten [] header (body ++ []) ∧
      announcedLength header = .ok body.length ∧ body.length ≤ 100 ∧
      [] ++ [body] <+: ((new 100).receive whole).1) := by
  intro body header cut whole
  have hwhole : HeaderAt 100 whole.flatten [] header (body ++ []) := by
    rw [List.flatten_singleton, List.append_nil]
    exact headerAt_padded 100 8192 body
  have hheader : HeaderAt 100 cut.flatten [] header body := by
    rw [show cut.flatten = header ++ lineEnd ++ body by simp [cut, header, paddedLines_eq]]
    exact headerAt_padded 100 8192 body
  have hcut : CutLate cut header body := cutLate_padded (Nat.le_refl _) body
  obtain ⟨taken, htaken, hrefused⟩ := (long_headers_are_refused_where_cut 100 cut).1 hheader hcut
  obtain rfl := List.prefix_nil.mp htaken
  have hlength : announcedLength header = .ok body.length :=
    (announcedLength_paddedLines 8192).trans (by decide)
  have hlimit : body.length ≤ 100 := by decide
  refine ⟨⟨hheader, hcut, hrefused⟩, hwhole, hlength, hlimit, ?_⟩
  refine ((long_headers_are_refused_where_cut 100 whole).2.1 hwhole hlength hlimit).mpr ?_
  intro before lines rest hbefore _
  exact not_cutLate_singleton (List.flatten_singleton ▸ hbefore)

/-- The same header is longer than the limit and its message is taken. -/
theorem long_header_at_once_is_taken :
    let body := Utf8.ofString "\x7b\"id\":1,\"method\":\"M\"\x7d"
    let header := paddedLines 8192
    HeaderAt 100 (header ++ lineEnd ++ body) [] header body ∧
      headerLimit < (header ++ lineEnd).length ∧
      (new 100).receive [header ++ lineEnd ++ body] = ([body], .ok (new 100)) := by
  intro body header
  have hlong := (cutLate_padded (Nat.le_refl _) body).lt_length
  refine ⟨headerAt_padded 100 8192 body, Nat.lt_of_succ_lt hlong, ?_⟩
  rw [receive_singleton]
  exact drain_eq_iff.mpr ⟨[], messages_padded 8192 (by decide) (by decide),
    .inr ⟨_, .of_blankLines 100 0, rfl⟩⟩

end Receiver

end Frame

end PlatformProxy
