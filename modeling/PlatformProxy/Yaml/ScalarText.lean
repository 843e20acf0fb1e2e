import PlatformProxy.Yaml.Cursor

/-!
# Scalars in a YAML text

The three ways of writing a scalar: as an indented block, in quotes, or plain. Lines of a scalar
are joined: one line end becomes a blank, the others stay.

## Main definitions

* `Yaml.Scan.readBlockScalar` — literal and folded blocks
* `Yaml.Scan.readQuoted` — text in quotes
* `Yaml.Scan.readPlainScalar` — plain text
-/

namespace PlatformProxy

namespace Yaml

namespace Scan

/-! ### Block scalars -/

/-- What happens to the line ends after a block scalar. -/
inductive Chomping
  | strip
  | clip
  | keep
  deriving DecidableEq

/-- The header of a block scalar: chomping and explicit indentation, in either order. -/
def readBlockHeader : Scan (Chomping × Nat) := do
  let readChomping : Scan (Option Chomping) := do
    match ← peek 0 with
    | some '+' =>
      skip 1
      pure (some .keep)
    | some '-' =>
      skip 1
      pure (some .strip)
    | _ => pure none
  let readIncrement : Scan Nat := do
    match ← peek 0 with
    | some c =>
      if c = '0' then fail "indentation by zero columns"
      else if c.isDigit then
        skip 1
        pure (c.toNat - 48)
      else pure 0
    | none => pure 0
  match ← readChomping with
  | some chomping => pure (chomping, ← readIncrement)
  | none =>
    let increment ← readIncrement
    let chomping ← if increment = 0 then pure none else readChomping
    pure (chomping.getD .clip, increment)

/-- Empty lines in front of a line of a block scalar, in an indentation that may be unknown: the
line ends, and the column of the widest line. -/
def readEmptyLines (indent : Option Int) :
    (fuel : Nat) → (widest : Int) → List Char → Scan (Int × List Char)
  | 0, widest, breaks => pure (widest, breaks)
  | fuel + 1, widest, breaks => do
    let s ← get
    let line := match indent with
      | some i => s.rest.take (i - s.mark.column).toNat
      | none => s.rest
    skip (line.takeWhile (· = ' ')).length
    let column ← column
    let widest := max widest column
    let d ← dialect
    match ← peek 0 with
    | some c =>
      if c = '\t' ∧ (indent.all fun i => column < i) ∧ d = .classic then
        fail "a tab where an indentation space is expected"
      else if isBreak d c then
        let b ← readBreak
        readEmptyLines indent fuel widest (breaks ++ b)
      else pure (widest, breaks)
    | none => pure (widest, breaks)

/-- What has been read of a block scalar: the text, the line end behind it, and the empty lines
behind that. -/
structure BlockText where
  text : List Char
  lastBreak : List Char
  emptyLines : List Char
  /-- The last line began with a blank. -/
  wasBlank : Bool

/-- Read the lines of a block scalar. -/
def readBlockLines (folded : Bool) (indent : Int) : (fuel : Nat) → BlockText → Scan BlockText
  | 0, b => pure b
  | fuel + 1, b => do
    let s ← get
    match s.rest with
    | [] => pure b
    | c :: _ =>
      if (s.mark.column : Int) ≠ indent then pure b
      else
        let blank := isBlank c
        let joint :=
          if folded && b.lastBreak.head? = some '\n' && !b.wasBlank && !blank then
            (if b.emptyLines = [] then [' '] else []) ++ b.emptyLines
          else b.lastBreak ++ b.emptyLines
        let line ← takeWhile fun c => !isBreak s.dialect c
        let lastBreak ← readBreak
        let (_, emptyLines) ← readEmptyLines (some indent) (← bound) 0 []
        readBlockLines folded indent fuel ⟨b.text ++ joint ++ line, lastBreak, emptyLines, blank⟩

def readBlockScalar (folded : Bool) : Scan (List Char) := do
  skip 1
  let (chomping, increment) ← readBlockHeader
  skipToLineEnd
  if !(← atLineEnd) then fail "expected the end of the line"
  let _ ← readBreak
  unrollColumns
  let s ← get
  let given : Option Int :=
    if increment = 0 then none
    else some (if 0 ≤ s.indent then s.indent + increment else increment)
  let (widest, emptyLines) ← readEmptyLines given (← bound) 0 []
  let indent := given.getD (max widest (max (s.indent + 1) 1))
  let b ← readBlockLines folded indent (← bound) ⟨[], [], emptyLines, false⟩
  pure (match chomping with
    | .strip => b.text
    | .clip => b.text ++ b.lastBreak
    | .keep => b.text ++ b.lastBreak ++ b.emptyLines)

/-! ### Quoted scalars -/

/-- Blanks and line ends between two pieces of a scalar: the blanks if there is no line end, else
the first line end and the others. -/
structure Gap where
  blanks : List Char
  firstBreak : List Char
  otherBreaks : List Char
  isBroken : Bool

namespace Gap

def empty : Gap := ⟨[], [], [], false⟩

/-- What a gap within a scalar stands for: a single line end is a space. -/
def folded (g : Gap) : List Char :=
  if !g.isBroken then g.blanks
  else if g.firstBreak.head? = some '\n' then
    if g.otherBreaks = [] then [' '] else g.otherBreaks
  else g.firstBreak ++ g.otherBreaks

end Gap

/-- Read blanks and line ends. Tabs in front of column `indent` are refused. -/
def readGap (indent : Int) : (fuel : Nat) → Gap → Scan Gap
  | 0, g => pure g
  | fuel + 1, g => do
    let s ← get
    match s.rest with
    | [] => pure g
    | c :: _ =>
      if isBlank c then
        if g.isBroken && c = '\t' && decide ((s.mark.column : Int) < indent) then
          if s.dialect = .modern then
            skipToLineEnd
            if !(← atLineEnd) then fail "a tab violates indentation"
            readGap indent fuel g
          else fail "a tab violates indentation"
        else
          skip 1
          readGap indent fuel (if g.isBroken then g else { g with blanks := g.blanks ++ [c] })
      else if isBreak s.dialect c then
        let b ← readBreak
        readGap indent fuel
          (if g.isBroken then { g with otherBreaks := g.otherBreaks ++ b }
            else { g with blanks := [], firstBreak := b, isBroken := true })
      else pure g

/-- The character of an escape with one letter. -/
def escaped? (c : Char) : Option Char :=
  match c with
  | '0' => some '\x00'
  | 'a' => some '\x07'
  | 'b' => some '\x08'
  | 't' => some '\t'
  | '\t' => some '\t'
  | 'n' => some '\n'
  | 'v' => some '\x0b'
  | 'f' => some '\x0c'
  | 'r' => some '\r'
  | 'e' => some '\x1b'
  | ' ' => some ' '
  | '"' => some '"'
  | '/' => some '/'
  | '\\' => some '\\'
  | 'N' => some '\u0085'
  | '_' => some '\u00a0'
  | 'L' => some '\u2028'
  | 'P' => some '\u2029'
  | _ => none

/-- How many hexadecimal digits an escape has. -/
def escapeWidth? (c : Char) : Option Nat :=
  match c with
  | 'x' => some 2
  | 'u' => some 4
  | 'U' => some 8
  | _ => none

/-- An escape, after its backslash. -/
def readEscape : Scan Char := do
  match ← peek 0 with
  | none => fail "unexpected end of the text"
  | some c =>
    skip 1
    match escaped? c, escapeWidth? c with
    | some c, _ => pure c
    | none, some width =>
      let digits := (← get).rest.take width
      match Text.baseValue? 16 digits with
      | some n =>
        if digits.length = width ∧ n.isValidChar then
          skip width
          pure (Char.ofNat n)
        else fail "bad code point in an escape"
      | none => fail "expected hexadecimal digits"
    | none, none => fail "unknown escape"

/-- One piece of a quoted scalar without gaps. The flag tells that it ends in an escaped line
end. -/
def readQuotedPiece (double : Bool) : (fuel : Nat) → List Char → Scan (List Char × Bool)
  | 0, acc => pure (acc.reverse, false)
  | fuel + 1, acc => do
    if ← gapAt 0 then pure (acc.reverse, false)
    else
      let c ← peek 0
      let next ← peek 1
      let d ← dialect
      if !double && c = some '\'' && next = some '\'' then
        skip 2
        readQuotedPiece double fuel ('\'' :: acc)
      else if c = some (if double then '"' else '\'') then pure (acc.reverse, false)
      else if double && c = some '\\' then
        skip 1
        if isLineEnd d next && next.isSome then
          let _ ← readBreak
          pure (acc.reverse, true)
        else
          let e ← readEscape
          readQuotedPiece double fuel (e :: acc)
      else
        skip 1
        readQuotedPiece double fuel (c.toList ++ acc)

/-- Read on in a quoted scalar up to its closing quote. -/
def readQuoted (double : Bool) : (fuel : Nat) → List Char → Scan (List Char)
  | 0, _ => fail "unexpected end of the text"
  | fuel + 1, text => do
    if ← atDocumentMarker then fail "unexpected document marker"
    let s ← get
    if s.rest = [] then fail "unexpected end of the text"
    else if s.dialect = .modern ∧ (s.mark.column : Int) < s.indent then
      fail "bad indentation of a quoted scalar"
    else
      let (piece, broken) ← readQuotedPiece double (← bound) []
      let text := text ++ piece
      if (← peek 0) = some (if double then '"' else '\'') then
        skip 1
        pure text
      else
        let indent ← (do if (← dialect) = .modern then pure s.indent else pure 0)
        let g ← readGap indent (← bound) { Gap.empty with isBroken := broken }
        readQuoted double fuel (text ++ g.folded)

/-- After a quoted scalar only some things may follow on its line. -/
def checkAfterQuoted (startLine : Nat) : Scan Unit := do
  if (← dialect) = .modern then
    skipToLineEnd
    let s ← get
    let ok := match s.rest.head? with
      | none => true
      | some c =>
        isBreak .modern c || (0 < s.flowLevel && [',', '}', ']', ':'].contains c) ||
          (c = ':' && s.mark.line = startLine)
    if !ok then fail "trailing content after a quoted scalar"

/-! ### Plain scalars -/

/-- Whether the next character cannot be part of a plain scalar. -/
def endsPlain : Scan Bool := do
  let s ← get
  let inFlow := 0 < s.flowLevel
  match s.rest with
  | [] => pure true
  | c :: rest =>
    if c = ':' then
      let flowNext := match rest.head? with
        | some n => isFlowIndicator n || (s.dialect = .classic && n = '?')
        | none => false
      if isGap s.dialect rest.head? then pure true
      else if inFlow && flowNext then
        if s.dialect = .classic then fail "unexpected ':'" else pure true
      else pure false
    else pure (inFlow && isFlowIndicator c)

/-- One piece of a plain scalar without gaps. -/
def readPlainPiece : (fuel : Nat) → List Char → Scan (List Char)
  | 0, acc => pure acc.reverse
  | fuel + 1, acc => do
    if (← gapAt 0) || (← endsPlain) then pure acc.reverse
    else
      let c ← peek 0
      skip 1
      readPlainPiece fuel (c.toList ++ acc)

/-- Read on in a plain scalar; the gap before the next piece belongs to the scalar only if that
piece does. -/
def readPlain (indent : Int) : (fuel : Nat) → List Char → Gap → Scan (List Char × Gap)
  | 0, text, g => pure (text, g)
  | fuel + 1, text, g => do
    if (← atDocumentMarker) || (← peek 0) = some '#' then pure (text, g)
    else
      let piece ← readPlainPiece (← bound) []
      let (text, g) :=
        if piece = [] then (text, g) else (text ++ g.folded ++ piece, Gap.empty)
      match ← peek 0 with
      | none => pure (text, g)
      | some c =>
        let d ← dialect
        if !(isBlank c || isBreak d c) then pure (text, g)
        else
          let g ← readGap indent (← bound) g
          let s ← get
          if s.flowLevel = 0 ∧ (s.mark.column : Int) < indent then pure (text, g)
          else readPlain indent fuel text g

def readPlainScalar : Scan (List Char) := do
  unrollColumns
  let s ← get
  let indent := s.indent + 1
  if s.dialect = .modern ∧ 0 < s.flowLevel ∧ (s.mark.column : Int) < indent then
    fail "bad indentation within brackets"
  else
    let (text, g) ← readPlain indent (← bound) [] Gap.empty
    if g.isBroken then allowKey true
    pure text

end Scan

end Yaml

end PlatformProxy
