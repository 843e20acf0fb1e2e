import Mathlib.Data.List.Infix
import PlatformProxy.Proofs.Frame.Receiving

/-!
# What stands on a stream

A receiver is a machine; this is what it is a machine for. Between two messages a stream goes on
with blank lines, the lines of a header, the blank line that ends them, and a body. That is said
here of bytes alone, so that a theorem on receivers has something to be measured by.

A header ends at the *first* blank line after a line of it. Its lines are therefore kept with their
line ends: `lines ++ lineEnd` is the whole block, and `lines` is what the length is read from.

## Main definitions

* `Frame.lineEnd`, `Frame.blankLines` — what stands between messages
* `Frame.IsHeader` — the lines of a header
* `Frame.Messages` — whole messages at the front of a stream
* `Frame.Front` — everything that can stand where a message begins, and what a receiver makes of it

## Main results

* `Frame.Receiver.decode_eq_iff_front` — a receiver makes nothing else of it
* `Frame.Receiver.takes_iff_messages` — the messages it takes are the whole messages of the stream
-/

namespace PlatformProxy

namespace Frame

def lineEnd : Bytes := [carriageReturn, lineFeed]

def blankLines (n : Nat) : Bytes := (List.replicate n lineEnd).flatten

@[simp] theorem blankLines_zero : blankLines 0 = [] := rfl

theorem blankLines_succ (n : Nat) : blankLines (n + 1) = lineEnd ++ blankLines n := rfl

theorem terminator_eq : terminator = lineEnd ++ lineEnd := rfl

/-- The lines of a header with their line ends. The blank line behind them is the first one, and
the first line is not blank itself. -/
structure IsHeader (lines : Bytes) : Prop where
  ended : lineEnd <:+ lines
  first : ¬ terminator <:+: lines ++ [carriageReturn]
  notBlank : ¬ lineEnd <+: lines

/-- Whole messages with bodies within a limit at the front of a stream, each with the blank lines
before it, and what is left of the stream. -/
inductive Messages (limit : Nat) : Bytes → List Bytes → Bytes → Prop
  | nil (rest : Bytes) : Messages limit rest [] rest
  | cons (n : Nat) {lines body bytes rest : Bytes} {bodies : List Bytes} (hlines : IsHeader lines)
      (hlength : announcedLength lines = .ok body.length) (hlimit : body.length ≤ limit)
      (more : Messages limit bytes bodies rest) :
      Messages limit (blankLines n ++ (lines ++ lineEnd ++ (body ++ bytes))) (body :: bodies) rest

/-! ### Blank lines -/

theorem lineEnd_prefix_cons_iff {a b : UInt8} {rest : Bytes} :
    lineEnd <+: a :: b :: rest ↔ a = carriageReturn ∧ b = lineFeed := by
  simp [lineEnd, List.cons_prefix_cons, eq_comm]

/-- Dropping blank lines drops blank lines, and all of them. -/
theorem exists_blankLines (bytes : Bytes) : ∃ n, bytes = blankLines n ++ dropBlankLines bytes := by
  fun_induction dropBlankLines bytes with
  | case1 a b rest h ih =>
    obtain ⟨n, hn⟩ := ih
    obtain ⟨rfl, rfl⟩ := h
    refine ⟨n + 1, ?_⟩
    rw [blankLines_succ, List.append_assoc, ← hn]
    rfl
  | case2 a b rest h => exact ⟨0, rfl⟩
  | case3 bytes h => exact ⟨0, rfl⟩

theorem not_lineEnd_prefix_dropBlankLines (bytes : Bytes) :
    ¬ lineEnd <+: dropBlankLines bytes := by
  fun_induction dropBlankLines bytes with
  | case1 a b rest h ih => exact ih
  | case2 a b rest h => rwa [lineEnd_prefix_cons_iff]
  | case3 bytes hshort =>
    intro hprefix
    obtain _ | ⟨a, _ | ⟨b, rest⟩⟩ := bytes
    · exact absurd hprefix.length_le (by simp [lineEnd])
    · exact absurd hprefix.length_le (by simp [lineEnd])
    · exact hshort a b rest rfl

theorem dropBlankLines_of_not_prefix {bytes : Bytes} (h : ¬ lineEnd <+: bytes) :
    dropBlankLines bytes = bytes := by
  match bytes with
  | [] | [_] => rfl
  | a :: b :: rest => rw [dropBlankLines, if_neg (by rwa [lineEnd_prefix_cons_iff] at h)]

theorem dropBlankLines_blankLines_append (n : Nat) (bytes : Bytes) :
    dropBlankLines (blankLines n ++ bytes) = dropBlankLines bytes := by
  induction n with
  | zero => rfl
  | succ n ih =>
    rw [blankLines_succ, List.append_assoc]
    show dropBlankLines (carriageReturn :: lineFeed :: (blankLines n ++ bytes)) = _
    rw [dropBlankLines, if_pos ⟨rfl, rfl⟩, ih]

/-! ### The end of a header -/

theorem findTerminator_eq_none_iff {bytes : Bytes} :
    findTerminator bytes = none ↔ ¬ terminator <:+: bytes := by
  induction bytes with
  | nil => simp [findTerminator, terminator]
  | cons b rest ih =>
    rw [findTerminator, List.infix_cons_iff, ← List.isPrefixOf_iff_prefix]
    by_cases h : terminator.isPrefixOf (b :: rest) = true
    · simp [h]
    · simp [h, ih]

theorem exists_of_findTerminator {bytes : Bytes} {stop : Nat}
    (h : findTerminator bytes = some stop) :
    ∃ before rest, bytes = before ++ terminator ++ rest ∧ before.length = stop := by
  induction bytes generalizing stop with
  | nil => simp [findTerminator] at h
  | cons b rest ih =>
    rw [findTerminator] at h
    split at h <;> rename_i hprefix
    · obtain rfl := Option.some.inj h
      obtain ⟨after, hafter⟩ := List.isPrefixOf_iff_prefix.mp hprefix
      exact ⟨[], after, hafter.symm, rfl⟩
    · obtain ⟨n, hn, rfl⟩ := Option.map_eq_some_iff.mp h
      obtain ⟨before, after, rfl, rfl⟩ := ih hn
      exact ⟨b :: before, after, rfl, rfl⟩

/-- What ends in the middle of a terminator is a prefix of what ends with it. -/
theorem prefix_append_terminator (before rest : Bytes) :
    before ++ lineEnd ++ [carriageReturn] <+: before ++ terminator ++ rest :=
  ⟨lineFeed :: rest, by simp [terminator, lineEnd]⟩

/-- No header ends before the place that is found. -/
theorem not_infix_of_findTerminator {before rest : Bytes}
    (h : findTerminator (before ++ terminator ++ rest) = some before.length) :
    ¬ terminator <:+: before ++ lineEnd ++ [carriageReturn] := by
  intro hinfix
  obtain ⟨stop, hstop⟩ :=
    Option.ne_none_iff_exists'.mp fun hnone => findTerminator_eq_none_iff.mp hnone hinfix
  have hlength := length_of_findTerminator hstop
  obtain ⟨more, hmore⟩ := prefix_append_terminator before rest
  have hsame := findTerminator_append hstop more
  rw [hmore, h] at hsame
  simp [terminator, lineEnd, ← Option.some.inj hsame] at hlength

/-- And the place that is found is the first. -/
theorem findTerminator_append_terminator {before : Bytes}
    (h : ¬ terminator <:+: before ++ lineEnd ++ [carriageReturn]) (rest : Bytes) :
    findTerminator (before ++ terminator ++ rest) = some before.length := by
  obtain ⟨stop, hstop⟩ : ∃ stop, findTerminator (before ++ terminator) = some stop :=
    Option.ne_none_iff_exists'.mp fun hnone =>
      findTerminator_eq_none_iff.mp hnone ⟨before, [], List.append_nil _⟩
  have hlength := length_of_findTerminator hstop
  obtain ⟨before', rest', hbytes, rfl⟩ := exists_of_findTerminator hstop
  have hstart : before' ++ terminator <+: before ++ terminator := ⟨rest', hbytes.symm⟩
  rw [List.length_append] at hlength
  rcases Nat.lt_or_ge before'.length before.length with hlt | hge
  · refine absurd ?_ h
    have hshort : before' ++ terminator <+: before ++ lineEnd ++ [carriageReturn] := by
      refine List.prefix_of_prefix_length_le hstart ?_ ?_
      · simpa using prefix_append_terminator before []
      · simp [terminator, lineEnd]
        omega
    exact (List.suffix_append before' terminator).isInfix.trans hshort.isInfix
  · rw [findTerminator_append hstop, show before'.length = before.length by omega]

/-! ### Headers -/

/-- The lines of a header and the blank line behind them, at the front of some bytes. -/
theorem exists_isHeader {bytes : Bytes} {stop : Nat} (h : findTerminator bytes = some stop)
    (hblank : ¬ lineEnd <+: bytes) :
    ∃ lines rest, bytes = lines ++ lineEnd ++ rest ∧ lines.length = stop + 2 ∧ IsHeader lines := by
  obtain ⟨before, rest, rfl, rfl⟩ := exists_of_findTerminator h
  refine ⟨before ++ lineEnd, rest, by simp [terminator_eq], by simp [lineEnd], ?_⟩
  refine ⟨List.suffix_append _ _, not_infix_of_findTerminator h, fun hprefix => hblank ?_⟩
  exact hprefix.trans ⟨lineEnd ++ rest, by simp [terminator_eq]⟩

namespace IsHeader

variable {lines : Bytes}

theorem findTerminator_eq (h : IsHeader lines) (rest : Bytes) :
    ∃ stop, lines.length = stop + 2 ∧ findTerminator (lines ++ lineEnd ++ rest) = some stop := by
  obtain ⟨before, rfl⟩ := h.ended
  refine ⟨before.length, by simp [lineEnd], ?_⟩
  rw [List.append_assoc before, ← terminator_eq]
  exact findTerminator_append_terminator h.first rest

theorem length_ge (h : IsHeader lines) : 2 ≤ lines.length := h.ended.length_le

/-- The end of a header is where the blank line behind it ends. -/
theorem terminator_suffix (h : IsHeader lines) : terminator <:+ lines ++ lineEnd := by
  obtain ⟨before, rfl⟩ := h.ended
  rw [List.append_assoc, ← terminator_eq]
  exact List.suffix_append before terminator

theorem not_prefix_append (h : IsHeader lines) (rest : Bytes) :
    ¬ lineEnd <+: lines ++ lineEnd ++ rest := by
  intro hprefix
  refine h.notBlank (List.prefix_of_prefix_length_le hprefix ?_ h.length_ge)
  rw [List.append_assoc]
  exact List.prefix_append lines _

theorem dropBlankLines_eq (h : IsHeader lines) (n : Nat) (rest : Bytes) :
    dropBlankLines (blankLines n ++ (lines ++ lineEnd ++ rest)) = lines ++ lineEnd ++ rest := by
  rw [dropBlankLines_blankLines_append, dropBlankLines_of_not_prefix (h.not_prefix_append rest)]

/-- A stream has one header at its front. -/
theorem unique {lines' rest rest' : Bytes} {n n' : Nat} (h : IsHeader lines) (h' : IsHeader lines')
    (heq : blankLines n ++ (lines ++ lineEnd ++ rest) =
      blankLines n' ++ (lines' ++ lineEnd ++ rest')) : lines = lines' ∧ rest = rest' := by
  have hfront : lines ++ lineEnd ++ rest = lines' ++ lineEnd ++ rest' := by
    rw [← h.dropBlankLines_eq n, heq, h'.dropBlankLines_eq]
  obtain ⟨stop, hstop, hfind⟩ := h.findTerminator_eq rest
  obtain ⟨stop', hstop', hfind'⟩ := h'.findTerminator_eq rest'
  rw [hfront, hfind'] at hfind
  obtain rfl := Option.some.inj hfind
  obtain ⟨hblock, hrest⟩ := List.append_inj hfront (by simp [hstop, hstop'])
  exact ⟨List.append_cancel_right hblock, hrest⟩

end IsHeader

/-! ### Where a message begins -/

/-- Everything that can stand on a stream where a message begins, with what a receiver says of it
and what it is left with: a whole message, one that is not whole yet, or a fault. -/
inductive Front (limit : Nat) : Bytes → Except Error (Option Bytes) → Receiver → Prop
  | message (n : Nat) {lines : Bytes} (body rest : Bytes) (hlines : IsHeader lines)
      (hlength : announcedLength lines = .ok body.length) (hlimit : body.length ≤ limit) :
      Front limit (blankLines n ++ (lines ++ lineEnd ++ (body ++ rest))) (.ok (some body))
        ⟨limit, none, rest⟩
  /-- The stream ends before the body does. -/
  | inBody (n : Nat) {lines : Bytes} {length : Nat} (part : Bytes) (hlines : IsHeader lines)
      (hlength : announcedLength lines = .ok length) (hlimit : length ≤ limit)
      (hpart : part.length < length) :
      Front limit (blankLines n ++ (lines ++ lineEnd ++ part)) (.ok none)
        ⟨limit, some length, part⟩
  /-- The stream ends before the header does. -/
  | inHeader (n : Nat) {part : Bytes} (hblank : ¬ lineEnd <+: part)
      (hopen : ¬ terminator <:+: part) (hshort : part.length ≤ headerLimit) :
      Front limit (blankLines n ++ part) (.ok none) ⟨limit, none, part⟩
  | longHeader (n : Nat) {part : Bytes} (hblank : ¬ lineEnd <+: part)
      (hopen : ¬ terminator <:+: part) (hlong : headerLimit < part.length) :
      Front limit (blankLines n ++ part) (.error (.longHeader headerLimit)) ⟨limit, none, part⟩
  | badHeader (n : Nat) {lines : Bytes} {e : Error} (rest : Bytes) (hlines : IsHeader lines)
      (hlength : announcedLength lines = .error e) :
      Front limit (blankLines n ++ (lines ++ lineEnd ++ rest)) (.error e)
        ⟨limit, none, lines ++ lineEnd ++ rest⟩
  | longBody (n : Nat) {lines : Bytes} {length : Nat} (rest : Bytes) (hlines : IsHeader lines)
      (hlength : announcedLength lines = .ok length) (hlimit : limit < length) :
      Front limit (blankLines n ++ (lines ++ lineEnd ++ rest)) (.error (.longBody length limit))
        ⟨limit, none, lines ++ lineEnd ++ rest⟩

/-- After blank lines there is nothing. -/
theorem Front.of_blankLines (limit n : Nat) :
    Front limit (blankLines n) (.ok none) ⟨limit, none, []⟩ := by
  have h : Front limit (blankLines n ++ []) (.ok none) ⟨limit, none, []⟩ :=
    .inHeader n (by decide) (by decide) (Nat.zero_le _)
  rwa [List.append_nil] at h

namespace Receiver

/-- A header whose end is there is taken for what its lines say. -/
theorem takeHeader_of_isHeader {limit : Nat} {lines : Bytes} (h : IsHeader lines) (rest : Bytes) :
    takeHeader ⟨limit, none, lines ++ lineEnd ++ rest⟩ =
      match announcedLength lines with
      | .error e => (.error e, ⟨limit, none, lines ++ lineEnd ++ rest⟩)
      | .ok length =>
        if limit < length then
          (.error (.longBody length limit), ⟨limit, none, lines ++ lineEnd ++ rest⟩)
        else takeBody ⟨limit, none, rest⟩ length := by
  obtain ⟨stop, hstop, hfind⟩ := h.findTerminator_eq rest
  have htake : (lines ++ lineEnd ++ rest).take (stop + 2) = lines := by
    rw [← hstop, List.append_assoc, List.take_left]
  have hdrop : (lines ++ lineEnd ++ rest).drop (stop + terminator.length) = rest := by
    rw [show stop + terminator.length = (lines ++ lineEnd).length by
      simp [hstop, terminator, lineEnd], List.drop_left]
  rw [takeHeader]
  dsimp only
  rw [hfind]
  dsimp only
  rw [hdrop]
  cases hlength : announcedLength lines with
  | error e => rw [htake, hlength]
  | ok length => rw [htake, hlength]

theorem decode_blankLines (limit n : Nat) {bytes : Bytes} (h : ¬ lineEnd <+: bytes) :
    decode ⟨limit, none, blankLines n ++ bytes⟩ = takeHeader ⟨limit, none, bytes⟩ := by
  rw [decode]
  dsimp only
  rw [dropBlankLines_blankLines_append, dropBlankLines_of_not_prefix h]

theorem decode_of_isHeader (limit n : Nat) {lines : Bytes} (h : IsHeader lines) (rest : Bytes) :
    decode ⟨limit, none, blankLines n ++ (lines ++ lineEnd ++ rest)⟩ =
      takeHeader ⟨limit, none, lines ++ lineEnd ++ rest⟩ :=
  decode_blankLines limit n (h.not_prefix_append rest)

theorem takeHeader_of_open {limit : Nat} {part : Bytes} (h : ¬ terminator <:+: part) :
    takeHeader ⟨limit, none, part⟩ =
      (if headerLimit < part.length then .error (.longHeader headerLimit) else .ok none,
        ⟨limit, none, part⟩) := by
  rw [takeHeader]
  dsimp only
  rw [findTerminator_eq_none_iff.mpr h]
  dsimp only
  split <;> rfl

/-- A receiver sees what stands at the front of a stream. -/
theorem decode_of_front {limit : Nat} {bytes : Bytes} {result : Except Error (Option Bytes)}
    {r : Receiver} (h : Front limit bytes result r) :
    decode ⟨limit, none, bytes⟩ = (result, r) := by
  cases h with
  | message n body rest hlines hlength hlimit =>
    rw [decode_of_isHeader limit n hlines, takeHeader_of_isHeader hlines, hlength]
    dsimp only
    rw [if_neg (Nat.not_lt.mpr hlimit), takeBody, if_neg (by simp)]
    simp
  | inBody n part hlines hlength hlimit hpart =>
    rw [decode_of_isHeader limit n hlines, takeHeader_of_isHeader hlines, hlength]
    dsimp only
    rw [if_neg (Nat.not_lt.mpr hlimit), takeBody, if_pos hpart]
  | inHeader n hblank hopen hshort =>
    rw [decode_blankLines limit n hblank, takeHeader_of_open hopen,
      if_neg (Nat.not_lt.mpr hshort)]
  | longHeader n hblank hopen hlong =>
    rw [decode_blankLines limit n hblank, takeHeader_of_open hopen, if_pos hlong]
  | badHeader n rest hlines hlength =>
    rw [decode_of_isHeader limit n hlines, takeHeader_of_isHeader hlines, hlength]
  | longBody n rest hlines hlength hlimit =>
    rw [decode_of_isHeader limit n hlines, takeHeader_of_isHeader hlines, hlength]
    dsimp only
    rw [if_pos hlimit]

end Receiver

/-- Something stands at the front of every stream. -/
theorem exists_front (limit : Nat) (bytes : Bytes) : ∃ result r, Front limit bytes result r := by
  obtain ⟨n, hn⟩ := exists_blankLines bytes
  have hblank := not_lineEnd_prefix_dropBlankLines bytes
  generalize dropBlankLines bytes = front at hn hblank
  subst hn
  cases hfind : findTerminator front with
  | none =>
    have hopen := findTerminator_eq_none_iff.mp hfind
    rcases Nat.lt_or_ge headerLimit front.length with hlong | hshort
    · exact ⟨_, _, .longHeader n hblank hopen hlong⟩
    · exact ⟨_, _, .inHeader n hblank hopen hshort⟩
  | some stop =>
    obtain ⟨lines, rest, rfl, -, hlines⟩ := exists_isHeader hfind hblank
    cases hlength : announcedLength lines with
    | error e => exact ⟨_, _, .badHeader n rest hlines hlength⟩
    | ok length =>
      rcases Nat.lt_or_ge limit length with hlimit | hlimit
      · exact ⟨_, _, .longBody n rest hlines hlength hlimit⟩
      · rcases Nat.lt_or_ge rest.length length with hpart | hwhole
        · exact ⟨_, _, .inBody n rest hlines hlength hlimit hpart⟩
        · have hbody : (rest.take length).length = length := List.length_take_of_le hwhole
          rw [← List.take_append_drop length rest]
          exact ⟨_, _, .message n (rest.take length) (rest.drop length) hlines
            (by rw [hbody, hlength]) (by rwa [hbody])⟩

namespace Receiver

/-- **A receiver sees what stands at the front of a stream, and nothing else.** -/
theorem decode_eq_iff_front {limit : Nat} {bytes : Bytes} {result : Except Error (Option Bytes)}
    {r : Receiver} :
    decode ⟨limit, none, bytes⟩ = (result, r) ↔ Front limit bytes result r := by
  refine ⟨fun h => ?_, decode_of_front⟩
  obtain ⟨result', r', hfront⟩ := exists_front limit bytes
  obtain ⟨rfl, rfl⟩ := Prod.mk.inj (h.symm.trans (decode_of_front hfront))
  exact hfront

/-! ### Whole messages -/

/-- **The messages that are taken are the whole messages of the stream.** -/
theorem takes_iff_messages {limit : Nat} {bytes : Bytes} {bodies : List Bytes} {r : Receiver} :
    Takes ⟨limit, none, bytes⟩ bodies r ↔
      ∃ rest, Messages limit bytes bodies rest ∧ r = ⟨limit, none, rest⟩ := by
  constructor
  · intro h
    generalize hstart : (⟨limit, none, bytes⟩ : Receiver) = start at h
    induction h generalizing bytes with
    | nil => exact ⟨bytes, .nil bytes, hstart.symm⟩
    | cons hdecode _ ih =>
      subst hstart
      cases decode_eq_iff_front.mp hdecode with
      | message n body rest hlines hlength hlimit =>
        obtain ⟨rest', hmessages, rfl⟩ := ih rfl
        exact ⟨rest', .cons n hlines hlength hlimit hmessages, rfl⟩
  · rintro ⟨rest, h, rfl⟩
    induction h with
    | nil rest => exact .nil _
    | cons n hlines hlength hlimit _ ih =>
      exact .cons (decode_of_front (.message n _ _ hlines hlength hlimit)) ih

end Receiver

end Frame

end PlatformProxy
